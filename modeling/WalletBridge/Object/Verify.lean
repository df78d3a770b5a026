import WalletBridge.Object.Coerce
import WalletBridge.Schema.Basic
import WalletBridge.Text.Base64

namespace WalletBridge

open Json

inductive Objection
  | object
  | kind (key expectation : String)
  | within (key : String) (inner : Objection)
  deriving DecidableEq, Repr

def Objection.message : Objection → String
  | .object => "object expected"
  | .kind key expectation => key ++ ": " ++ expectation ++ " expected"
  | .within key inner => key ++ "." ++ inner.message

namespace Scalar

def expectation : Scalar → String
  | .string => "string"
  | .bool => "boolean"
  | .int32 | .uint32 => "integer"
  | .int64 => "integer|Long"
  | .bytes => "buffer"
  | .keyType => "enum value"

def isKnownKeyType (n : Int) : Bool :=
  decide (-0x80000000 ≤ n ∧ n < 0x80000000) && (KeyType.ofNumber? (Int32.ofInt n)).isSome

def accepts : Scalar → Json → Bool
  | .string, .str _ => true
  | .bool, .bool _ => true
  | .int32, v => v.isIntegerIn (-0x80000000) 0x7fffffff
  | .uint32, v => v.isIntegerIn 0 0xffffffff
  | .int64, v => v.isLong
  | .bytes, .str s => (Base64.decode? s).isSome
  | .bytes, .arr items => items.all (·.isIntegerIn 0 255)
  | .keyType, .str s => (KeyType.ofName? s).isSome
  | .keyType, .num n => n.integer?.any isKnownKeyType
  | _, _ => false

def verify (s : Scalar) (key : String) (v : Json) : Option Objection :=
  if s.accepts v then none else some (.kind key s.expectation)

end Scalar

namespace Fields

def verifyObject (inner : Members → Option Objection) : Json → Option Objection
  | .obj ms => inner ms
  | _ => some .object

def verifyMessage (inner : Members → Option Objection) (key : String) (v : Json) :
    Option Objection :=
  (verifyObject inner v).map (.within key)

def verifyRepeated (inner : Members → Option Objection) (key : String) : Json → Option Objection
  | .arr items => (items.findSome? (verifyObject inner)).map (.within key)
  | _ => some (.kind key "array")

/-- The first objection in the order of declaration. Absent members are fine, and members that are
not declared do not matter. -/
def verifyMembers : Fields → Members → Option Objection
  | .nil, _ => none
  | .scalar info kind rest, ms =>
    ((ms.present? info.key).bind (kind.verify info.key)).or (rest.verifyMembers ms)
  | .message info _ body rest, ms =>
    ((ms.present? info.key).bind (verifyMessage body.verifyMembers info.key)).or
      (rest.verifyMembers ms)
  | .repeated info _ body rest, ms =>
    ((ms.present? info.key).bind (verifyRepeated body.verifyMembers info.key)).or
      (rest.verifyMembers ms)

end Fields

def Schema.verify (s : Schema) (v : Json) : Option Objection :=
  Fields.verifyObject s.fields.verifyMembers v

end WalletBridge
