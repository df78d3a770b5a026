import WalletBridge.Schema.Basic
import WalletBridge.Wire.Skip
import WalletBridge.Schema.Encode

namespace WalletBridge

open Wire

namespace Scalar

def readVarint (w : WireType) (bs : Bytes) : Except DecodeError (Nat × Bytes) := do
  checkWireType w .varint
  Varint.read bs

def readBytes (w : WireType) (bs : Bytes) : Except DecodeError (Bytes × Bytes) := do
  checkWireType w .lengthDelimited
  readDelimited bs

/-- The value behind a key of the given wire type, and what follows it. Words wider than the value
lose their high bits. -/
def decode : (s : Scalar) → WireType → Bytes → Except DecodeError (s.Value × Bytes)
  | .string, w, bs => do
    let (body, rest) ← readBytes w bs
    match Utf8.decode? body with
    | some s => return (s, rest)
    | none => Fault.notUtf8.raise
  | .bool, w, bs => do
    let (n, rest) ← readVarint w bs
    return (n != 0, rest)
  | .int32, w, bs | .keyType, w, bs => do
    let (n, rest) ← readVarint w bs
    return (Int32.ofNat n, rest)
  | .uint32, w, bs => do
    let (n, rest) ← readVarint w bs
    return (UInt32.ofNat n, rest)
  | .int64, w, bs => do
    let (n, rest) ← readVarint w bs
    return (Int64.ofNat n, rest)
  | .bytes, w, bs => readBytes w bs

end Scalar

namespace Fields

/-- Merges fields into a value until at most `limit` bytes are left. Each field takes at least a
byte, which bounds their number. -/
def mergeUntil {α : Type} (mergeField : Key → α → Bytes → Except DecodeError (α × Bytes))
    (limit : Nat) : (fuel : Nat) → α → Bytes → Except DecodeError (α × Bytes)
  | 0, a, bs => .ok (a, bs)
  | fuel + 1, a, bs =>
    if bs.length ≤ limit then .ok (a, bs)
    else do
      let (key, rest) ← Key.read bs
      let (a, rest) ← mergeField key a rest
      mergeUntil mergeField limit fuel a rest

/-- Merges the fields behind a length, which have to end where the length says. Nothing stops a
field on its way from reading beyond that end. -/
def mergeDelimited {α : Type} (mergeField : Key → α → Bytes → Except DecodeError (α × Bytes))
    (a : α) (bs : Bytes) : Except DecodeError (α × Bytes) := do
  let (n, rest) ← Varint.read bs
  if rest.length < n then Fault.bufferUnderflow.raise
  else
    let limit := rest.length - n
    let (a, rest) ← mergeUntil mergeField limit rest.length a rest
    if rest.length = limit then return (a, rest) else Fault.delimitedLengthExceeded.raise

def mergeNested {α : Type}
    (mergeField : (budget : Nat) → Key → α → Bytes → Except DecodeError (α × Bytes))
    (w : WireType) (a : α) (bs : Bytes) : (budget : Nat) → Except DecodeError (α × Bytes)
  | 0 => do
    checkWireType w .lengthDelimited
    Fault.recursionLimit.raise
  | budget + 1 => do
    checkWireType w .lengthDelimited
    mergeDelimited (mergeField budget) a bs

/-- Merges the value behind a key into a record, and gives what follows it. It replaces a scalar, goes
into a single message and is appended to a repeated one; other fields are passed over. -/
def mergeField (owner : String) : (fs : Fields) → (budget : Nat) → Key → fs.Record → Bytes →
    Except DecodeError (fs.Record × Bytes)
  | .nil, budget, key, r, bs => do
    return (r, ← skipField budget key bs)
  | .scalar info kind rest, budget, key, (v, r), bs =>
    if key.tag = info.tag then do
      let (v, bs) ← locate ⟨owner, info.label⟩ (kind.decode key.wireType bs)
      return ((v, r), bs)
    else do
      let (r, bs) ← mergeField owner rest budget key r bs
      return ((v, r), bs)
  | .message info name body rest, budget, key, (m, r), bs =>
    if key.tag = info.tag then do
      let (m, bs) ← locate ⟨owner, info.label⟩
        (mergeNested (mergeField name.ownName body) key.wireType (m.getD body.zero) bs budget)
      return ((some m, r), bs)
    else do
      let (r, bs) ← mergeField owner rest budget key r bs
      return ((m, r), bs)
  | .repeated info name body rest, budget, key, (ms, r), bs =>
    if key.tag = info.tag then do
      let (m, bs) ← locate ⟨owner, info.label⟩
        (mergeNested (mergeField name.ownName body) key.wireType body.zero bs budget)
      return ((ms ++ [m], r), bs)
    else do
      let (r, bs) ← mergeField owner rest budget key r bs
      return ((ms, r), bs)

end Fields

namespace Schema

def recursionBudget : Nat := 100

def parse (s : Schema) (bs : Bytes) : Except DecodeError s.Record := do
  let merge := s.fields.mergeField s.name.ownName recursionBudget
  let (r, _) ← Fields.mergeUntil merge 0 bs.length s.zero bs
  return r

def parseDelimited (s : Schema) (bs : Bytes) : Except DecodeError (s.Record × Bytes) :=
  Fields.mergeNested (s.fields.mergeField s.name.ownName) .lengthDelimited s.zero bs recursionBudget

end Schema

end WalletBridge
