namespace WalletBridge.Wire

inductive WireType
  | varint
  | sixtyFourBit
  | lengthDelimited
  | startGroup
  | endGroup
  | thirtyTwoBit
  deriving DecidableEq, Repr

namespace WireType

def code : WireType → Nat
  | .varint => 0
  | .sixtyFourBit => 1
  | .lengthDelimited => 2
  | .startGroup => 3
  | .endGroup => 4
  | .thirtyTwoBit => 5

def ofCode? : Nat → Option WireType
  | 0 => some .varint
  | 1 => some .sixtyFourBit
  | 2 => some .lengthDelimited
  | 3 => some .startGroup
  | 4 => some .endGroup
  | 5 => some .thirtyTwoBit
  | _ => none

theorem ofCode?_code (w : WireType) : ofCode? w.code = some w := by
  cases w <;> rfl

def name : WireType → String
  | .varint => "Varint"
  | .sixtyFourBit => "SixtyFourBit"
  | .lengthDelimited => "LengthDelimited"
  | .startGroup => "StartGroup"
  | .endGroup => "EndGroup"
  | .thirtyTwoBit => "ThirtyTwoBit"

end WireType

inductive Fault
  | invalidVarint
  | bufferUnderflow
  | delimitedLengthExceeded
  | invalidKey (value : Nat)
  | unknownWireType (code : Nat)
  | zeroTag
  | wrongWireType (actual expected : WireType)
  | unexpectedEndGroup
  | notUtf8
  | recursionLimit
  deriving DecidableEq, Repr

def Fault.message : Fault → String
  | .invalidVarint => "invalid varint"
  | .bufferUnderflow => "buffer underflow"
  | .delimitedLengthExceeded => "delimited length exceeded"
  | .invalidKey value => "invalid key value: " ++ toString value
  | .unknownWireType code => "invalid wire type value: " ++ toString code
  | .zeroTag => "invalid tag value: 0"
  | .wrongWireType actual expected =>
    "invalid wire type: " ++ actual.name ++ " (expected " ++ expected.name ++ ")"
  | .unexpectedEndGroup => "unexpected end group tag"
  | .notUtf8 => "invalid string value: data is not UTF-8 encoded"
  | .recursionLimit => "recursion limit reached"

structure Location where
  message : String
  field : String
  deriving DecidableEq, Repr

/-- A fault and the fields around it, the innermost first. -/
structure DecodeError where
  fault : Fault
  trail : List Location
  deriving DecidableEq, Repr

namespace DecodeError

def within (e : DecodeError) (l : Location) : DecodeError :=
  { e with trail := e.trail ++ [l] }

def message (e : DecodeError) : String :=
  "failed to decode Protobuf message: " ++
    String.join (e.trail.map fun l => l.message ++ "." ++ l.field ++ ": ") ++ e.fault.message

end DecodeError

def Fault.raise {α : Type} (f : Fault) : Except DecodeError α :=
  .error ⟨f, []⟩

def locate {α : Type} (l : Location) : Except DecodeError α → Except DecodeError α
  | .ok a => .ok a
  | .error e => .error (e.within l)

end WalletBridge.Wire
