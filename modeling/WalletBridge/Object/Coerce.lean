import WalletBridge.Json.Basic
import WalletBridge.Number.Extended
import WalletBridge.Text.Blank

namespace WalletBridge

namespace Json

def truthy : Json → Bool
  | .null => false
  | .bool b => b
  | .num n => !n.isZero
  | .str s => s != ""
  | .arr _ | .obj _ => true

def integerText? (s : String) : Option Int :=
  Numeral.integer? (trimBlanks s.toList)

def realText? (s : String) : Option Extended :=
  Extended.read? (trimBlanks s.toList)

def fitsSigned (n : Int) : Bool :=
  -0x8000000000000000 ≤ n && n < 0x8000000000000000

def fitsUnsigned (n : Int) : Bool :=
  0 ≤ n && n < 0x10000000000000000

/-- The value modulo `2 ^ 32`. A string is read exactly if it fits 64 bits with a sign, and as a
double otherwise. -/
def toUInt32 : Json → UInt32
  | .num (.int n) => UInt32.ofInt n
  | .num (.float x) => UInt32.ofInt x.truncate
  | .bool b => if b then 1 else 0
  | .str s =>
    match (integerText? s).filter fitsSigned with
    | some n => UInt32.ofInt n
    | none =>
      match realText? s with
      | some (.finite x) => UInt32.ofInt x.truncate
      | _ => 0
  | .null | .arr _ | .obj _ => 0

def saturate : Extended → Int64
  | .finite x => Int64.ofInt (max (-0x8000000000000000) (min 0x7fffffffffffffff x.truncate))
  | .infinite negative => if negative then Int64.minValue else Int64.maxValue

/-- The integer with the given upper half, taken as signed, and lower half. -/
def joinHalves (high low : UInt32) : Int64 :=
  Int64.ofInt (high.toInt32.toInt * 0x100000000 + low.toNat)

/-- Integers that fit 64 bits wrap into the signed ones; doubles are cut off at their ends. An
object may hold the two halves. -/
def toInt64 : Json → Int64
  | .num (.int n) => Int64.ofInt n
  | .num (.float x) => saturate (.finite x)
  | .bool b => if b then 1 else 0
  | .str s =>
    match (integerText? s).filter fun n => fitsSigned n || fitsUnsigned n with
    | some n => Int64.ofInt n
    | none => ((realText? s).map saturate).getD 0
  | .obj ms =>
    match Members.get? ms "low", Members.get? ms "high" with
    | some low, some high => joinHalves high.toUInt32 low.toUInt32
    | _, _ => 0
  | .null | .arr _ => 0

def isIntegerIn (low high : Int) : Json → Bool
  | .num n => n.integer?.any fun k => decide (low ≤ k ∧ k ≤ high)
  | _ => false

def isHalf (v : Json) : Bool :=
  v.isIntegerIn (-0x80000000) 0xffffffff

def isLong : Json → Bool
  | v@(.num _) => v.isIntegerIn (-0x8000000000000000) 0x7fffffffffffffff
  | .str s => (integerText? s).any fitsSigned
  | .obj ms =>
    match Members.get? ms "low", Members.get? ms "high" with
    | some low, some high => low.isHalf && high.isHalf
    | _, _ => false
  | _ => false

end Json

end WalletBridge
