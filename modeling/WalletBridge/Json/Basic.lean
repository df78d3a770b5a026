import WalletBridge.Number.Binary64

namespace WalletBridge

namespace Json

/-- A number keeps whether it was written as an integer: `1` and `1.0` differ. -/
inductive Number
  | int (n : Int)
  | float (x : Binary64)
  deriving DecidableEq, Repr

def Number.integer? : Number → Option Int
  | .int n => some n
  | .float x => x.integer?

def Number.isZero : Number → Bool
  | .int n => n == 0
  | .float x => x.isZero

end Json

inductive Json
  | null
  | bool (b : Bool)
  | num (n : Json.Number)
  | str (s : String)
  | arr (items : List Json)
  | obj (members : List (String × Json))
  deriving Repr

namespace Json

/-- The members of an object. A key that occurs twice stands for its first occurrence. -/
abbrev Members := List (String × Json)

def Members.get? (ms : Members) (key : String) : Option Json :=
  ms.lookup key

/-- A member whose value is null counts as absent. -/
def Members.present? (ms : Members) (key : String) : Option Json :=
  match ms.get? key with
  | some .null => none
  | v => v

theorem Members.present?_eq_some_iff {ms : Members} {key : String} {v : Json} :
    ms.present? key = some v ↔ ms.get? key = some v ∧ v ≠ .null := by
  unfold Members.present?
  cases ms.get? key with
  | none => simp
  | some w =>
    cases w with
    | null => simp [eq_comm]
    | _ =>
      constructor
      · rintro ⟨⟩
        exact ⟨rfl, Json.noConfusion⟩
      · exact And.left

def Members.insert : Members → String → Json → Members
  | [], key, v => [(key, v)]
  | (k, w) :: rest, key, v =>
    if k = key then (k, v) :: rest else (k, w) :: Members.insert rest key v

def ofInt (n : Int) : Json :=
  .num (.int n)

def ofNat (n : Nat) : Json :=
  ofInt n

def members? : Json → Option Members
  | .obj ms => some ms
  | _ => none

def items? : Json → Option (List Json)
  | .arr items => some items
  | _ => none

def string? : Json → Option String
  | .str s => some s
  | _ => none

def bool? : Json → Option Bool
  | .bool b => some b
  | _ => none

def int? : Json → Option Int
  | .num (.int n) => some n
  | _ => none

def field? (v : Json) (key : String) : Option Json :=
  v.members?.bind (·.present? key)

end Json

end WalletBridge
