import WalletBridge.Json.Basic

namespace WalletBridge

namespace Binary64

def signedUnits (x : Binary64) : Int :=
  if x.negative then -x.units else x.units

def value (x : Binary64) : Rat :=
  (x.signedUnits : Rat) / (one : Rat)

theorem one_pos : 0 < one := by decide +kernel

theorem value_eq_intCast_iff {x : Binary64} {k : Int} :
    x.value = k ↔ x.signedUnits = k * one := by
  have nonzero : (one : Rat) ≠ 0 := Rat.ne_of_gt (Rat.natCast_pos.mpr one_pos)
  constructor
  · intro same
    have scaled : (x.signedUnits : Rat) = ((k * one : Int) : Rat) := by
      rw [Rat.intCast_mul, ← same, value]
      exact (Rat.div_mul_cancel nonzero).symm
    exact Rat.intCast_inj.mp scaled
  · intro same
    rw [value, same, Rat.intCast_mul]
    exact Rat.mul_div_cancel nonzero

theorem truncate_mul_one {x : Binary64} (whole : x.units % one = 0) :
    x.truncate * one = x.signedUnits := by
  have multiple : x.units / one * one = x.units :=
    Nat.div_mul_cancel (Nat.dvd_of_mod_eq_zero whole)
  have multiple : ((x.units : Int) / one) * one = x.units := by exact_mod_cast multiple
  unfold truncate signedUnits
  cases x.negative with
  | false => exact multiple
  | true => exact (Int.neg_mul ..).trans (congrArg Neg.neg multiple)

theorem truncate_of_signedUnits {x : Binary64} {k : Int} (same : x.signedUnits = k * one) :
    x.truncate = k := by
  have positive : (one : Int) ≠ 0 := by
    have := one_pos
    omega
  unfold signedUnits at same
  unfold truncate
  cases sign : x.negative with
  | false =>
    simp only [sign, Bool.false_eq_true, if_false] at same ⊢
    rw [same, Int.mul_ediv_cancel _ positive]
  | true =>
    simp only [sign, if_true] at same ⊢
    have units : (x.units : Int) = -k * one := by
      rw [Int.neg_mul]
      omega
    rw [units, Int.mul_ediv_cancel _ positive, Int.neg_neg]

theorem units_mod_one {x : Binary64} {k : Int} (same : x.signedUnits = k * one) :
    x.units % one = 0 := by
  have magnitude : x.signedUnits.natAbs = x.units := by
    unfold signedUnits
    split <;> omega
  rw [← magnitude, same, Int.natAbs_mul, Int.natAbs_natCast]
  exact Nat.mul_mod_left _ _

theorem integer?_eq_some_iff {x : Binary64} {k : Int} : x.integer? = some k ↔ x.value = k := by
  rw [value_eq_intCast_iff]
  constructor
  · intro read
    unfold integer? at read
    split at read
    · rename_i whole
      rw [← truncate_mul_one whole, Option.some.inj read]
    · cases read
  · intro same
    rw [integer?, if_pos (units_mod_one same), truncate_of_signedUnits same]

theorem truncate_of_integer? {x : Binary64} {k : Int} (read : x.integer? = some k) :
    x.truncate = k :=
  truncate_of_signedUnits (value_eq_intCast_iff.mp (integer?_eq_some_iff.mp read))

end Binary64

namespace Json.Number

def value : Number → Rat
  | .int n => n
  | .float x => x.value

theorem integer?_eq_some_iff {n : Number} {k : Int} : n.integer? = some k ↔ n.value = k := by
  cases n with
  | int n =>
    simp only [integer?, value, Option.some.injEq]
    exact Rat.intCast_inj.symm
  | float x => exact Binary64.integer?_eq_some_iff

end Json.Number

end WalletBridge
