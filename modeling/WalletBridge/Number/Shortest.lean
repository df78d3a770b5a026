import WalletBridge.Number.Binary64

namespace WalletBridge.Binary64

/-- Twice the distance, in units, to the ends of the interval that rounds to `x`: below, above. -/
def slack (x : Binary64) : Nat × Nat :=
  let gap := 1 <<< x.scale
  if x.significand = 1 <<< 52 ∧ 0 < x.scale then (gap / 2, gap) else (gap, gap)

/-- Whether `n / d` rounds to the magnitude of `x`. The ends count for an even significand. -/
def roundsFrom (x : Binary64) (n d : Nat) : Bool :=
  let (below, above) := x.slack
  let v := 2 * n * one
  let low := (2 * x.units - below) * d
  let high := (2 * x.units + above) * d
  if x.significand % 2 = 0 then low ≤ v && v ≤ high else low < v && v < high

def gridPoint (c : Nat) (e : Int) : Nat × Nat :=
  if 0 ≤ e then (c * Nat.pow 10 e.toNat, 1) else (c, Nat.pow 10 (-e).toNat)

def nearOnGrid? (x : Binary64) (e : Int) : Option Nat :=
  let (p, q) := gridPoint 1 e
  let n := x.units * q
  let d := one * p
  let c := n / d
  let r := n % d
  let hits (c : Nat) := let (a, b) := gridPoint c e; x.roundsFrom a b
  match hits c, hits (c + 1) with
  | true, true => some (if 2 * r < d ∨ 2 * r = d ∧ c % 2 = 0 then c else c + 1)
  | true, false => some c
  | false, true => some (c + 1)
  | false, false => none

def leadingExponent (x : Binary64) : Nat → Int → Int
  | 0, e => e
  | fuel + 1, e =>
    let (a, b) := gridPoint 1 e
    if a * one ≤ x.units * b then e else leadingExponent x fuel (e - 1)

def firstHit (x : Binary64) : Nat → Int → Nat × Int
  | 0, e => (0, e)
  | fuel + 1, e =>
    match x.nearOnGrid? e with
    | some c => (c, e)
    | none => firstHit x fuel (e - 1)

def dropZeros : Nat → Nat × Int → Nat × Int
  | 0, p => p
  | fuel + 1, (c, e) => if c % 10 = 0 then dropZeros fuel (c / 10, e + 1) else (c, e)

/-- Coefficient and exponent of the shortest decimal for a number other than zero. Seventeen digits
always suffice. -/
def shortest (x : Binary64) : Nat × Int :=
  let bound : Int := (Nat.log2 x.units : Int) * 31 / 100 - 322
  dropZeros 18 (x.firstHit 18 (x.leadingExponent 400 bound))

/-- Positional between `10 ^ -5` and `10 ^ 16`, always with a point; scientific outside. -/
def toText (x : Binary64) : String :=
  let sign := if x.negative then "-" else ""
  if x.isZero then sign ++ "0.0"
  else
    let (c, e) := x.shortest
    let digits := Nat.toDigits 10 c
    let point : Int := digits.length + e
    let zeros (n : Int) := List.replicate n.toNat '0'
    let body :=
      if 0 ≤ e ∧ point ≤ 16 then digits ++ zeros e ++ ['.', '0']
      else if 0 < point ∧ point ≤ 16 then digits.take point.toNat ++ '.' :: digits.drop point.toNat
      else if -5 < point ∧ point ≤ 0 then '0' :: '.' :: zeros (-point) ++ digits
      else
        let fraction := if digits.length = 1 then [] else '.' :: digits.drop 1
        digits.take 1 ++ fraction ++ 'e' :: (toString (point - 1)).toList
    sign ++ String.ofList body

end WalletBridge.Binary64
