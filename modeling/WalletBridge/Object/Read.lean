import WalletBridge.Json.Printer
import WalletBridge.Object.Coerce
import WalletBridge.Schema.Basic
import WalletBridge.Text.Base64

namespace WalletBridge

open Json

inductive Mismatch
  | object
  | array
  | encoding
  deriving DecidableEq, Repr

/-- What does not fit, and the full name of the field that declares it or of the whole message. -/
structure ObjectError where
  path : String
  mismatch : Mismatch
  deriving DecidableEq, Repr

def Mismatch.message : Mismatch → String
  | .object => "object expected"
  | .array => "array expected"
  | .encoding => "invalid encoding"

def ObjectError.message (e : ObjectError) : String :=
  e.path ++ ": " ++ e.mismatch.message

namespace Scalar

def ofJson (path : String) : (s : Scalar) → Json → Except ObjectError s.Value
  | .string, .str s => .ok s
  | .string, .null => .ok ""
  | .string, v => .ok v.compact
  | .bool, v => .ok v.truthy
  | .int32, v => .ok v.toUInt32.toInt32
  | .uint32, v => .ok v.toUInt32
  | .int64, v => .ok v.toInt64
  | .bytes, .str s =>
    match Base64.decode? s with
    | some b => .ok b
    | none => .error ⟨path, .encoding⟩
  | .bytes, .arr items => .ok (items.map fun v => v.toUInt32.toUInt8)
  | .bytes, _ => .ok []
  | .keyType, .str s => .ok (((KeyType.ofName? s).map KeyType.number).getD (0 : Int32))
  | .keyType, .num n => .ok (Json.num n).toUInt32.toInt32
  | .keyType, _ => .ok (0 : Int32)

end Scalar

namespace Fields

def readObject {α : Type} (inner : Members → Except ObjectError α) (path : String) :
    Json → Except ObjectError α
  | .obj ms => inner ms
  | _ => .error ⟨path, .object⟩

def readMessage {α : Type} (inner : Members → Except ObjectError α) (path : String) (v : Json) :
    Except ObjectError (Option α) :=
  (readObject inner path v).map some

def readRepeated {α : Type} (inner : Members → Except ObjectError α) (path : String) :
    Json → Except ObjectError (List α)
  | .arr items => items.mapM (readObject inner path)
  | _ => .error ⟨path, .array⟩

def readMember {α : Type} (zero : α) (read : Json → Except ObjectError α) :
    Option Json → Except ObjectError α
  | some v => read v
  | none => .ok zero

/-- Fails with the first field that fails, in the order of declaration. -/
def ofMembers (owner : MessageName) : (fs : Fields) → Members → Except ObjectError fs.Record
  | .nil, _ => .ok ()
  | .scalar info kind rest, ms => do
    let path := owner.full ++ "." ++ info.key
    let v ← readMember kind.zero (kind.ofJson path) (ms.present? info.key)
    return (v, ← ofMembers owner rest ms)
  | .message info name body rest, ms => do
    let path := owner.full ++ "." ++ info.key
    let v ← readMember none (readMessage (ofMembers name body) path) (ms.present? info.key)
    return (v, ← ofMembers owner rest ms)
  | .repeated info name body rest, ms => do
    let path := owner.full ++ "." ++ info.key
    let v ← readMember [] (readRepeated (ofMembers name body) path) (ms.present? info.key)
    return (v, ← ofMembers owner rest ms)

end Fields

def Schema.ofObject (s : Schema) (v : Json) : Except ObjectError s.Record :=
  Fields.readObject (s.fields.ofMembers s.name) s.name.full v

end WalletBridge
