import WalletBridge.Proofs.Number.Value

namespace WalletBridge.Binary64

/-- The multiple of `step` that lies nearest to `n`, an even one if there are two. -/
structure Nearest (step n k : Int) : Prop where
  multiple : step ∣ k
  near : 2 * (n - k).natAbs ≤ step
  tie : 2 * (n - k).natAbs = step → 2 * step ∣ k

theorem Nearest.eq_iff {step n k : Int} (nearest : Nearest step n k) : k = n ↔ step ∣ n := by
  constructor
  · rintro rfl
    exact nearest.multiple
  · intro multiple
    have apart : step.natAbs ∣ (n - k).natAbs :=
      Int.natAbs_dvd_natAbs.mpr (Int.dvd_sub multiple nearest.multiple)
    have near := nearest.near
    by_cases different : (n - k).natAbs = 0
    · omega
    · have far := Nat.le_of_dvd (Nat.pos_of_ne_zero different) apart
      omega

theorem roundedQuotient_mul (n : Nat) {d k : Nat} (positive : 0 < k) :
    roundedQuotient (n * k) (d * k) = roundedQuotient n d := by
  have below : 2 * (n % d * k) < d * k ↔ 2 * (n % d) < d := by
    rw [← Nat.mul_assoc]
    exact Nat.mul_lt_mul_right positive
  have half : 2 * (n % d * k) = d * k ↔ 2 * (n % d) = d := by
    rw [← Nat.mul_assoc]
    exact Nat.mul_left_inj (Nat.ne_of_gt positive)
  simp only [roundedQuotient, Nat.mul_div_mul_right n d positive, Nat.mul_mod_mul_right, below, half]

theorem even_multiple {d q : Nat} (even : q % 2 = 0) : 2 * (d : Int) ∣ ((d * q : Nat) : Int) := by
  obtain ⟨half, rfl⟩ := Nat.dvd_of_mod_eq_zero even
  refine ⟨half, ?_⟩
  rw [← Nat.mul_assoc, Nat.mul_comm d 2, Int.natCast_mul, Int.natCast_mul]
  rfl

theorem nearest_roundedQuotient (n : Nat) {d : Nat} (positive : 0 < d) :
    Nearest d n (d * roundedQuotient n d : Nat) := by
  have parts := Nat.div_add_mod n d
  have bound := Nat.mod_lt n positive
  refine ⟨Int.natCast_dvd_natCast.mpr (Nat.dvd_mul_right ..), ?_, ?_⟩
  all_goals
    unfold roundedQuotient
    dsimp only
    split
  · omega
  · rw [Nat.mul_succ]
    omega
  · intro tie
    exact even_multiple (by omega)
  · intro tie
    rw [Nat.mul_succ] at tie
    exact even_multiple (by omega)

theorem mul_one_shiftLeft (n k : Nat) : n * 1 <<< k = n <<< k := by
  rw [Nat.shiftLeft_eq, Nat.shiftLeft_eq, Nat.one_mul]

theorem log2_shiftLeft {n : Nat} (positive : n ≠ 0) (k : Nat) : (n <<< k).log2 = n.log2 + k := by
  induction k with
  | zero => rfl
  | succ k ih =>
    have nonzero : n <<< k ≠ 0 := by
      rw [Nat.shiftLeft_eq]
      exact Nat.mul_ne_zero positive (Nat.ne_of_gt (Nat.two_pow_pos k))
    rw [Nat.shiftLeft_succ, Nat.log2_two_mul nonzero, ih, Nat.add_assoc]

theorem scaleFor_mul_one {n : Nat} (nonzero : n ≠ 0) : scaleFor (n * one) = n.log2 + 1022 := by
  rw [scaleFor, one, mul_one_shiftLeft, log2_shiftLeft nonzero]
  omega

theorem scaleFor_of_wide {n : Nat} (low : 0x8000000000000000 ≤ n) (high : n < 0x10000000000000000) :
    scaleFor (n * one) = 1085 := by
  have nonzero : n ≠ 0 := by omega
  have log : n.log2 = 63 := (Nat.log2_eq_iff nonzero).mpr ⟨low, high⟩
  rw [scaleFor_mul_one nonzero, log]

theorem shiftLeft_scale (q k : Nat) : q <<< (k + 1074) = q <<< k * one := by
  rw [Nat.shiftLeft_add, one, mul_one_shiftLeft]

theorem truncate_ofParts? {q k : Nat} (low : 1 <<< 52 ≤ q) (high : q < 1 <<< 53) (scale : k ≤ 971) :
    ∃ x, ofParts? false q (k + 1074) = some x ∧ x.truncate = (q <<< k : Nat) := by
  have fits : q < 1 <<< 53 ∧ k + 1074 ≤ 2045 ∧ (1 <<< 52 ≤ q ∨ k + 1074 = 0) :=
    ⟨high, by omega, .inl low⟩
  refine ⟨_, dif_pos fits, truncate_of_signedUnits ?_⟩
  change ((q <<< (k + 1074) : Nat) : Int) = _
  rw [shiftLeft_scale, Int.natCast_mul]

/-- A significand that is rounded up to the next power of two takes one scale more. -/
theorem ofRatio?_integer {n : Nat} (low : 0x8000000000000000 ≤ n) (high : n < 0x10000000000000000) :
    ∃ x, ofRatio? false n 1 = some x ∧ x.truncate = (2048 * roundedQuotient n 2048 : Nat) := by
  have step : (1 : Nat) <<< 1085 = 2048 * one := shiftLeft_scale 1 11
  have quotient : roundedQuotient (n * one) (1 <<< 1085) = roundedQuotient n 2048 := by
    rw [step, roundedQuotient_mul n one_pos]
  have near := (nearest_roundedQuotient n (d := 2048) (by decide)).near
  simp only [ofRatio?, Nat.div_one, scaleFor_of_wide low high, quotient]
  by_cases carry : roundedQuotient n 2048 = 1 <<< 53
  · obtain ⟨x, found, value⟩ := truncate_ofParts? (q := 1 <<< 52) (k := 12) (by decide) (by decide)
      (by decide)
    rw [if_pos carry]
    exact ⟨x, found, by rw [value, carry]; rfl⟩
  · obtain ⟨x, found, value⟩ := truncate_ofParts? (q := roundedQuotient n 2048) (k := 11)
      (by omega) (by omega) (by decide)
    have units : roundedQuotient n 2048 <<< 11 = 2048 * roundedQuotient n 2048 :=
      (Nat.shiftLeft_eq ..).trans (Nat.mul_comm _ 2048)
    rw [if_neg carry]
    exact ⟨x, found, by rw [value, units]⟩

theorem ofDecimal?_eq_ofRatio? {n : Nat} (nonzero : n ≠ 0) (high : n < 0x10000000000000000)
    (negative : Bool) : ofDecimal? ⟨negative, n, 0⟩ = ofRatio? negative n 1 := by
  have digits : (Nat.toDigits 10 n).length ≤ 20 :=
    (Nat.length_toDigits_le_iff (by decide) (by decide)).mpr (by omega)
  rw [ofDecimal?, if_neg (by dsimp only; omega), if_neg (by dsimp only; omega), if_pos (Int.le_refl 0)]
  exact congrArg (ofRatio? negative · 1) (Nat.mul_one n)

theorem ofDecimal?_integer {n : Nat} (low : 0x8000000000000000 ≤ n)
    (high : n < 0x10000000000000000) :
    ∃ x, ofDecimal? ⟨false, n, 0⟩ = some x ∧ Nearest 2048 n x.truncate := by
  obtain ⟨x, found, value⟩ := ofRatio?_integer low high
  refine ⟨x, ?_, value ▸ nearest_roundedQuotient n (by decide)⟩
  rw [ofDecimal?_eq_ofRatio? (by omega) high, found]

theorem roundedQuotient_one (n : Nat) : roundedQuotient n 1 = n := by
  simp [roundedQuotient, Nat.mod_one]

/-- A number of at most 53 digits is its own rounding, moved up until it has 53 of them. -/
theorem ofRatio?_of_small {n : Nat} (nonzero : n ≠ 0) (small : n < 1 <<< 53) (negative : Bool) :
    ∃ x, ofRatio? negative n 1 = some x ∧ x.negative = negative ∧ x.units = n * one := by
  have log : n.log2 < 53 := (Nat.log2_lt nonzero).mpr small
  obtain ⟨up, room⟩ : ∃ up, n.log2 + up = 52 := ⟨52 - n.log2, by omega⟩
  have significand_log : (n <<< up).log2 = 52 := (log2_shiftLeft nonzero up).trans room
  have significand_nonzero : n <<< up ≠ 0 := by
    intro zero
    rw [zero] at significand_log
    cases significand_log
  obtain ⟨low, high⟩ := (Nat.log2_eq_iff significand_nonzero).mp significand_log
  have units : (n <<< up) <<< (n.log2 + 1022) = n * one := by
    have total : up + (n.log2 + 1022) = 1074 := by omega
    rw [← Nat.shiftLeft_add, total, one, mul_one_shiftLeft]
  have quotient : roundedQuotient (n * one) (1 <<< (n.log2 + 1022)) = n <<< up := by
    have positive : 0 < 2 ^ (n.log2 + 1022) := Nat.two_pow_pos _
    rw [← units, Nat.shiftLeft_eq (n <<< up), Nat.shiftLeft_eq 1, roundedQuotient_mul _ positive,
      roundedQuotient_one]
  have fits : n <<< up < 1 <<< 53 ∧ n.log2 + 1022 ≤ 2045 ∧
      (1 <<< 52 ≤ n <<< up ∨ n.log2 + 1022 = 0) :=
    ⟨high, by omega, .inl low⟩
  simp only [ofRatio?, Nat.div_one, scaleFor_mul_one nonzero, quotient]
  rw [if_neg (Nat.ne_of_lt fits.1)]
  exact ⟨_, dif_pos fits, rfl, units⟩

theorem value_of_units {x : Binary64} {n : Nat} (units : x.units = n * one) :
    x.value = ((if x.negative then -n else n : Int) : Rat) := by
  rw [value_eq_intCast_iff, signedUnits, units]
  cases x.negative with
  | false => rfl
  | true => simp only [if_true, Int.natCast_mul, Int.neg_mul]

theorem ofDecimal?_of_small {n : Nat} (small : n < 1 <<< 53) (negative : Bool) :
    ∃ x, ofDecimal? ⟨negative, n, 0⟩ = some x ∧
      x.value = ((if negative then -n else n : Int) : Rat) := by
  by_cases nonzero : n = 0
  · subst nonzero
    have found : ofDecimal? ⟨negative, 0, 0⟩ = some (zero negative) := by
      rw [ofDecimal?, if_pos (.inl rfl)]
    have units : (zero negative).units = 0 * one := by rw [units, Nat.zero_mul, zero, Nat.zero_shiftLeft]
    exact ⟨zero negative, found, value_of_units units⟩
  · obtain ⟨x, found, rfl, units⟩ := ofRatio?_of_small nonzero small negative
    have narrow : n < 0x10000000000000000 := Nat.lt_trans small (by decide)
    exact ⟨x, (ofDecimal?_eq_ofRatio? nonzero narrow _).trans found, value_of_units units⟩

end WalletBridge.Binary64
