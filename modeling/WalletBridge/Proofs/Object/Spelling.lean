import WalletBridge.Proofs.Number.Rounding
import WalletBridge.Proofs.Object.Reading

namespace WalletBridge

open Json

namespace Json

def WrapsTo (v : Json) (n : Int) : Prop :=
  ∀ path,
    (∃ x : Int32, Scalar.int32.ofJson path v = .ok x ∧ x.toInt % 0x100000000 = n % 0x100000000) ∧
    ∃ y : UInt32, Scalar.uint32.ofJson path v = .ok y ∧
      (y.toNat : Int) % 0x100000000 = n % 0x100000000

theorem WrapsTo.emod_eq {v : Json} {n k : Int} (wraps : v.WrapsTo n) (also : v.WrapsTo k) :
    n % 0x100000000 = k % 0x100000000 := by
  obtain ⟨_, y, read, same⟩ := wraps ""
  obtain ⟨_, z, again, also⟩ := also ""
  rw [read] at again
  cases again
  exact same.symm.trans also

theorem wrapsTo_of_toUInt32 {v : Json} {n : Int} (word : v.toUInt32 = UInt32.ofInt n) :
    v.WrapsTo n := by
  intro path
  refine ⟨⟨Int32.ofInt n, ?_, ?_⟩, ⟨UInt32.ofInt n, congrArg Except.ok word, ?_⟩⟩
  · rw [Scalar.ofJson, word, Word.toInt32_ofInt]
  · rw [Int32.toInt_ofInt]
    exact Int.bmod_emod
  · rw [Word.toNat_ofInt, Int.emod_emod]

theorem wrapsTo_ofInt (n : Int) : (ofInt n).WrapsTo n :=
  wrapsTo_of_toUInt32 rfl

theorem wrapsTo_str {s : String} {n : Int} (spells : Spells s n) (fits : fitsSigned n = true) :
    (Json.str s).WrapsTo n := by
  apply wrapsTo_of_toUInt32
  rw [toUInt32, integerText?_eq_some_iff.mpr spells, Option.filter_some, if_pos fits]

/-- A text that does not fit a signed word is read as a double. -/
theorem wrapsTo_nearest {s : String} {n : Int} (spells : Spells s n) (low : 0x8000000000000000 ≤ n)
    (high : n < 0x10000000000000000) :
    ∃ k, Binary64.Nearest 2048 n k ∧ (Json.str s).WrapsTo k := by
  obtain ⟨x, rounds, nearest⟩ :=
    Binary64.ofDecimal?_integer (n := n.toNat) (by omega) (by omega)
  rw [Int.toNat_of_nonneg (by omega)] at nearest
  have read := integerText?_eq_some_iff.mpr spells
  have numeral : Numeral.decimal? (trimBlanks s.toList) = some ⟨false, n.toNat, 0⟩ :=
    Numeral.decimal?_of_spells (Numeral.spells_of_integer? read) (by omega)
  have real : realText? s = some (.finite x) := by
    simp only [realText?, Extended.read?, numeral, rounds]
  have wide : fitsSigned n = false := by
    simp only [fitsSigned, Bool.and_eq_false_iff, decide_eq_false_iff_not]
    omega
  refine ⟨x.truncate, nearest, wrapsTo_of_toUInt32 ?_⟩
  rw [toUInt32, read, Option.filter_some, if_neg (by rw [wide]; decide)]
  simp only [real]

/-- An integer of 64 bits, signed or not, wraps as a number, and as a text if it fits a signed word.
Larger texts wrap after they were rounded to a multiple of 2048, which for just these multiples makes
no difference. -/
theorem wraps_of_spells {n : Int} (low : -0x8000000000000000 ≤ n)
    (high : n < 0x10000000000000000) :
    (ofInt n).WrapsTo n ∧
    ∀ s, Spells s n →
      (n < 0x8000000000000000 → (Json.str s).WrapsTo n) ∧
      (0x8000000000000000 ≤ n →
        (∃ k, Binary64.Nearest 2048 n k ∧ (Json.str s).WrapsTo k) ∧
        ((Json.str s).WrapsTo n ↔ 2048 ∣ n)) := by
  refine ⟨wrapsTo_ofInt n, fun s spells => ⟨?_, ?_⟩⟩
  · intro signed
    apply wrapsTo_str spells
    simp only [fitsSigned, Bool.and_eq_true, decide_eq_true_eq]
    exact ⟨low, signed⟩
  · intro wide
    obtain ⟨k, nearest, wraps⟩ := wrapsTo_nearest spells wide high
    refine ⟨⟨k, nearest, wraps⟩, ?_, ?_⟩
    · intro exact
      have near := nearest.near
      have congruent := wraps.emod_eq exact
      exact nearest.eq_iff.mp (by omega)
    · intro multiple
      rw [nearest.eq_iff.mpr multiple] at wraps
      exact wraps

/-- The text of `2 ^ 63 + 1` counts as `2 ^ 63`. -/
theorem wraps_of_spells_roundedText :
    (ofInt 0x8000000000000001).WrapsTo 0x8000000000000001 ∧
    (Json.str " 9223372036854775809").WrapsTo 0x8000000000000000 ∧
    ¬ (Json.str " 9223372036854775809").WrapsTo 0x8000000000000001 := by
  have spells : Spells " 9223372036854775809" 0x8000000000000001 :=
    integerText?_eq_some_iff.mp (by decide +kernel)
  obtain ⟨number, text⟩ := wraps_of_spells (n := 0x8000000000000001) (by decide) (by decide)
  obtain ⟨⟨k, nearest, wraps⟩, exact⟩ := (text _ spells).2 (by decide)
  have rounded : k = 0x8000000000000000 := by
    obtain ⟨⟨q, rfl⟩, near, _⟩ := nearest
    omega
  exact ⟨number, rounded ▸ wraps, fun same => absurd (exact.mp same) (by decide)⟩

theorem number_one_text_zero :
    Spells "9223372036854775809" 0x8000000000000001 ∧
    Scalar.uint32.ofJson "" (ofInt 0x8000000000000001) = .ok (1 : UInt32) ∧
    Scalar.uint32.ofJson "" (.str "9223372036854775809") = .ok (0 : UInt32) := by
  have text : (Json.str "9223372036854775809").toUInt32 = 0 := by decide +kernel
  exact ⟨integerText?_eq_some_iff.mp (by decide +kernel), rfl, congrArg Except.ok text⟩

theorem bmod_bounds (n : Int) {m : Nat} (positive : 0 < m) :
    -((m : Int) / 2) ≤ n.bmod m ∧ n.bmod m < ((m : Int) + 1) / 2 ∧ n.bmod m % m = n % m :=
  ⟨Int.le_bmod positive, Int.bmod_lt positive, Int.bmod_emod⟩

structure Halves (ms : Members) (low high : Int) : Prop where
  lower : ms.get? "low" = some (ofInt low)
  upper : ms.get? "high" = some (ofInt high)
  low_ge : -0x80000000 ≤ low
  low_lt : low < 0x100000000
  high_ge : -0x80000000 ≤ high
  high_lt : high < 0x100000000

/-- The spellings of a long integer. Each half counts modulo `2 ^ 32`. -/
inductive SpellsLong : Json → Int → Prop
  | number (n : Int) : SpellsLong (ofInt n) n
  | text {s : String} {n : Int} (spells : Spells s n) : SpellsLong (.str s) n
  | halves {ms : Members} {low high n : Int} (halves : Halves ms low high)
      (lower : low % 0x100000000 = n % 0x100000000)
      (upper : high % 0x100000000 = n / 0x100000000 % 0x100000000) : SpellsLong (.obj ms) n

theorem Halves.meansLong {ms : Members} {low high : Int} (halves : Halves ms low high) {x : Int64}
    (joined : x.toInt = high.bmod 0x100000000 * 0x100000000 + low % 0x100000000) :
    (Json.obj ms).MeansLong x := by
  have low_half : (ofInt low).IsHalf low := ⟨⟨.int low, rfl, rfl⟩, halves.low_ge, halves.low_lt⟩
  have high_half : (ofInt high).IsHalf high :=
    ⟨⟨.int high, rfl, rfl⟩, halves.high_ge, halves.high_lt⟩
  exact .halves halves.lower halves.upper low_half high_half joined

theorem Halves.toInt64_eq {ms : Members} {low high : Int} (halves : Halves ms low high) :
    (Json.obj ms).toInt64.toInt = high.bmod 0x100000000 * 0x100000000 + low % 0x100000000 := by
  obtain ⟨x, joined⟩ := exists_joined low high
  rw [toInt64_of_meansLong (halves.meansLong joined), joined]

/-- The upper half carries the sign, so it is the quotient itself. -/
theorem toInt_eq_of_halves {low high : Int} {x : Int64}
    (lower : low % 0x100000000 = x.toInt % 0x100000000)
    (upper : high % 0x100000000 = x.toInt / 0x100000000 % 0x100000000) :
    x.toInt = high.bmod 0x100000000 * 0x100000000 + low % 0x100000000 := by
  have low_bound := x.le_toInt
  have high_bound := x.toInt_lt
  obtain ⟨least, greatest, residue⟩ := bmod_bounds high (m := 0x100000000) (by decide)
  have quotient : high.bmod 0x100000000 = x.toInt / 0x100000000 := by omega
  omega

theorem meansLong_of_spellsLong {v : Json} {x : Int64} (spells : SpellsLong v x.toInt) :
    v.MeansLong x := by
  generalize same : x.toInt = n at spells
  cases spells with
  | number n => exact .number ⟨.int n, rfl, congrArg Int.cast same.symm⟩
  | text spells => exact .text (same ▸ spells)
  | halves halves lower upper =>
    subst same
    exact halves.meansLong (toInt_eq_of_halves lower upper)

/-- A long integer determines its halves modulo `2 ^ 32`. -/
theorem toInt64_eq_iff_of_halves {ms ms' : Members} {low high low' high' : Int}
    (halves : Halves ms low high) (halves' : Halves ms' low' high') :
    (Json.obj ms).toInt64 = (Json.obj ms').toInt64 ↔
      low % 0x100000000 = low' % 0x100000000 ∧ high % 0x100000000 = high' % 0x100000000 := by
  obtain ⟨least, greatest, residue⟩ := bmod_bounds high (m := 0x100000000) (by decide)
  obtain ⟨least', greatest', residue'⟩ := bmod_bounds high' (m := 0x100000000) (by decide)
  rw [← Int64.toInt_inj, halves.toInt64_eq, halves'.toInt64_eq]
  omega

theorem not_isLong_of_wide {v : Json} {n : Int} (wide : 0x8000000000000000 ≤ n)
    (spells : v = ofInt n ∨ ∃ s, v = .str s ∧ Spells s n) : v.isLong = false := by
  rcases spells with rfl | ⟨s, rfl, spells⟩
  · simp [isLong, ofInt, isIntegerIn, Number.integer?]
    omega
  · rw [isLong, integerText?_eq_some_iff.mpr spells, Option.any_some]
    simp [fitsSigned]
    omega

theorem toInt64_of_wide {v : Json} {n : Int} (wide : 0x8000000000000000 ≤ n)
    (high : n < 0x10000000000000000) (spells : v = ofInt n ∨ ∃ s, v = .str s ∧ Spells s n) :
    v.toInt64 = Int64.ofInt n := by
  rcases spells with rfl | ⟨s, rfl, spells⟩
  · rfl
  · have fits : (fitsSigned n || fitsUnsigned n) = true := by
      simp [fitsUnsigned]
      omega
    rw [toInt64, integerText?_eq_some_iff.mpr spells, Option.filter_some, if_pos fits]

/-- Every spelling of a long integer is let through and read as this integer. Objects with halves are
read as the same integer just if the halves agree modulo `2 ^ 32`. A number or text from `2 ^ 63` on
is refused, and read as the negative integer with the same 64 bits. -/
theorem long_of_spells (key path : String) :
    (∀ (n : Int) v, -0x8000000000000000 ≤ n → n < 0x8000000000000000 → SpellsLong v n →
      Scalar.int64.verify key v = none ∧
      ∃ x : Int64, Scalar.int64.ofJson path v = .ok x ∧ x.toInt = n) ∧
    (∀ ms ms' low high low' high', Halves ms low high → Halves ms' low' high' →
      (Scalar.int64.ofJson path (.obj ms) = Scalar.int64.ofJson path (.obj ms') ↔
        low % 0x100000000 = low' % 0x100000000 ∧ high % 0x100000000 = high' % 0x100000000)) ∧
    (∀ (n : Int) v, 0x8000000000000000 ≤ n → n < 0x10000000000000000 →
      (v = ofInt n ∨ ∃ s, v = .str s ∧ Spells s n) →
      Scalar.int64.verify key v = some (.kind key "integer|Long") ∧
      ∃ x : Int64, Scalar.int64.ofJson path v = .ok x ∧ x.toInt = n - 0x10000000000000000) := by
  have exact := Scalar.int64.exact key path
  refine ⟨?_, ?_, ?_⟩
  · intro n v low high spells
    obtain ⟨x, rfl⟩ := exists_long low high
    have means : Scalar.int64.Means v x := meansLong_of_spellsLong spells
    exact ⟨exact.verified means, x, exact.read means, rfl⟩
  · intro ms ms' low high low' high' halves halves'
    rw [← toInt64_eq_iff_of_halves halves halves']
    exact ⟨Except.ok.inj, congrArg Except.ok⟩
  · intro n v wide high spells
    have refused : Scalar.int64.accepts v = false := not_isLong_of_wide wide spells
    refine ⟨by rw [Scalar.verify, refused]; rfl, Int64.ofInt n, ?_, ?_⟩
    · exact congrArg Except.ok (toInt64_of_wide wide high spells)
    · obtain ⟨least, greatest, residue⟩ := bmod_bounds n (m := 0x10000000000000000) (by decide)
      rw [Int64.toInt_ofInt]
      change n.bmod 0x10000000000000000 = _
      omega

def minusTwoHalves : Members :=
  [("unsigned", .bool false), ("high", ofInt 0xffffffff), ("low", ofInt (-2))]

theorem long_of_spells_minusTwo :
    Scalar.int64.verify "amount" (.str " -0002\n") = none ∧
    (∃ x : Int64, Scalar.int64.ofJson "amount" (.obj minusTwoHalves) = .ok x ∧ x.toInt = -2) ∧
    Scalar.int64.ofJson "amount" (.obj minusTwoHalves) ≠
      Scalar.int64.ofJson "amount" (.obj [("low", ofInt 2), ("high", ofInt (-1))]) ∧
    ∃ x : Int64, Scalar.int64.ofJson "amount" (.str "+9223372036854775808") = .ok x ∧
      x.toInt = -0x8000000000000000 := by
  have padded : SpellsLong (.str " -0002\n") (-2) :=
    .text (integerText?_eq_some_iff.mp (by decide +kernel))
  have halves : Halves minusTwoHalves (-2) 0xffffffff :=
    ⟨rfl, rfl, by decide, by decide, by decide, by decide⟩
  have others : Halves [("low", ofInt 2), ("high", ofInt (-1))] 2 (-1) :=
    ⟨rfl, rfl, by decide, by decide, by decide, by decide⟩
  have wide : Spells "+9223372036854775808" 0x8000000000000000 :=
    integerText?_eq_some_iff.mp (by decide +kernel)
  obtain ⟨long, split, wrapped⟩ := long_of_spells "amount" "amount"
  refine ⟨(long (-2) _ (by decide) (by decide) padded).1, ?_, ?_, ?_⟩
  · exact (long (-2) _ (by decide) (by decide) (.halves halves (by decide) (by decide))).2
  · intro same
    exact absurd ((split _ _ _ _ _ _ halves others).mp same).1 (by decide)
  · exact (wrapped _ _ (by decide) (by decide) (.inr ⟨_, rfl, wide⟩)).2

end Json

end WalletBridge
