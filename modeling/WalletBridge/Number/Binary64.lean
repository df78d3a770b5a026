import WalletBridge.Text.Numeral

namespace WalletBridge

/-- The finite double `± significand · 2 ^ scale` in units of `2 ^ -1074`, of which all doubles are
whole multiples. -/
structure Binary64 where
  negative : Bool
  significand : Nat
  scale : Nat
  significand_lt : significand < 1 <<< 53
  scale_le : scale ≤ 2045
  normal : 1 <<< 52 ≤ significand ∨ scale = 0
  deriving DecidableEq, Repr

namespace Binary64

def one : Nat := 1 <<< 1074

def units (x : Binary64) : Nat :=
  x.significand <<< x.scale

def isZero (x : Binary64) : Bool :=
  x.significand == 0

def truncate (x : Binary64) : Int :=
  let n : Int := x.units / one
  if x.negative then -n else n

def integer? (x : Binary64) : Option Int :=
  if x.units % one = 0 then some x.truncate else none

/-- The quotient rounded to the nearest integer, a half to the even one. -/
def roundedQuotient (n d : Nat) : Nat :=
  let q := n / d
  let r := n % d
  if 2 * r < d ∨ 2 * r = d ∧ q % 2 = 0 then q else q + 1

/-- The scale at which `q` units have at most 53 binary digits. -/
def scaleFor (q : Nat) : Nat :=
  Nat.log2 q - 52

def ofParts? (negative : Bool) (significand scale : Nat) : Option Binary64 :=
  if h : significand < 1 <<< 53 ∧ scale ≤ 2045 ∧ (1 <<< 52 ≤ significand ∨ scale = 0) then
    some ⟨negative, significand, scale, h.1, h.2.1, h.2.2⟩
  else none

def ofRatio? (negative : Bool) (n d : Nat) : Option Binary64 :=
  let scale := scaleFor (n * one / d)
  let significand := roundedQuotient (n * one) (d <<< scale)
  if significand = 1 <<< 53 then ofParts? negative (1 <<< 52) (scale + 1)
  else ofParts? negative significand scale

def zero (negative : Bool) : Binary64 :=
  ⟨negative, 0, 0, by decide, by decide, by decide⟩

/-- The double nearest to a decimal, if it is finite. Far outside the range of doubles the digits
do not matter, and no power of ten is formed. -/
def ofDecimal? (d : Numeral.Decimal) : Option Binary64 :=
  let magnitude : Int := (Nat.toDigits 10 d.coefficient).length + d.exponent
  if d.coefficient = 0 ∨ magnitude < -330 then some (zero d.negative)
  else if 310 < magnitude then none
  else if 0 ≤ d.exponent then ofRatio? d.negative (d.coefficient * Nat.pow 10 d.exponent.toNat) 1
  else ofRatio? d.negative d.coefficient (Nat.pow 10 (-d.exponent).toNat)

end Binary64

end WalletBridge
