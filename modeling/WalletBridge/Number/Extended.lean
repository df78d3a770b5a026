import WalletBridge.Number.Binary64

namespace WalletBridge

inductive Extended
  | finite (x : Binary64)
  | infinite (negative : Bool)
  deriving DecidableEq, Repr

namespace Extended

/-- A decimal numeral, or infinity by name in any case. Not-a-number counts as no numeral. -/
def read? (cs : List Char) : Option Extended :=
  match Numeral.decimal? cs with
  | some d =>
    match Binary64.ofDecimal? d with
    | some x => some (.finite x)
    | none => some (.infinite d.negative)
  | none =>
    let (negative, rest) := Numeral.splitSign cs
    let word := String.ofList (rest.map Char.toLower)
    if word = "inf" ∨ word = "infinity" then some (.infinite negative) else none

end Extended

end WalletBridge
