import WalletBridge.Json.Basic
import WalletBridge.Schema.Basic
import WalletBridge.Text.Base64

namespace WalletBridge

inductive LongForm
  | number
  | text
  deriving DecidableEq, Repr

inductive EnumForm
  | number
  /-- Numbers without a name stay numbers. -/
  | name
  deriving DecidableEq, Repr

inductive BytesForm
  | octets
  | base64
  deriving DecidableEq, Repr

structure RenderOptions where
  longs : LongForm := .number
  enums : EnumForm := .number
  bytes : BytesForm := .octets
  /-- Fields that are zero are shown, an absent message as null. -/
  defaults : Bool := false
  arrays : Bool := false
  deriving DecidableEq, Repr

def RenderOptions.json : RenderOptions :=
  ⟨.text, .name, .base64, false, false⟩

namespace Scalar

def toJson (o : RenderOptions) : (s : Scalar) → s.Value → Json
  | .string, v => .str v
  | .bool, v => .bool v
  | .int32, v => .ofInt (Int32.toInt v)
  | .uint32, v => .ofNat (UInt32.toNat v)
  | .int64, v =>
    match o.longs with
    | .number => .ofInt (Int64.toInt v)
    | .text => .str (toString (Int64.toInt v))
  | .bytes, v =>
    match o.bytes with
    | .octets => .arr (List.map (fun b : UInt8 => .ofNat b.toNat) v)
    | .base64 => .str (Base64.encode v)
  | .keyType, v =>
    match o.enums, KeyType.ofNumber? v with
    | .name, some k => .str k.name
    | _, _ => .ofInt (Int32.toInt v)

def render? (o : RenderOptions) (s : Scalar) (v : s.Value) : Option Json :=
  if v = s.zero ∧ o.defaults = false then none else some (s.toJson o v)

end Scalar

namespace Fields

def renderMessage? {α : Type} (o : RenderOptions) (inner : α → Json.Members) :
    Option α → Option Json
  | some m => some (.obj (inner m))
  | none => if o.defaults then some .null else none

def renderRepeated? {α : Type} (o : RenderOptions) (inner : α → Json.Members) (ms : List α) :
    Option Json :=
  if ms.isEmpty && !(o.arrays || o.defaults) then none
  else some (.arr (ms.map fun m => .obj (inner m)))

def member (key : String) (v : Option Json) : Json.Members :=
  (v.map fun v => (key, v)).toList

def toMembers (o : RenderOptions) : (fs : Fields) → fs.Record → Json.Members
  | .nil, _ => []
  | .scalar info kind rest, (v, r) => member info.key (kind.render? o v) ++ toMembers o rest r
  | .message info _ body rest, (m, r) =>
    member info.key (renderMessage? o (toMembers o body) m) ++ toMembers o rest r
  | .repeated info _ body rest, (ms, r) =>
    member info.key (renderRepeated? o (toMembers o body) ms) ++ toMembers o rest r

end Fields

namespace Schema

def toObject (o : RenderOptions) (s : Schema) (r : s.Record) : Json :=
  .obj (s.fields.toMembers o r)

def toJson (s : Schema) (r : s.Record) : Json :=
  s.toObject .json r

end Schema

end WalletBridge
