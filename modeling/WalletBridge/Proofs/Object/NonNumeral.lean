import WalletBridge.Object.Read
import WalletBridge.Proofs.Text.Decimal

namespace WalletBridge

open Numeral

namespace Json

theorem Members.get?_insert_self (ms : Members) (key : String) (v : Json) :
    (ms.insert key v).get? key = some v := by
  induction ms with
  | nil => simp [insert, get?]
  | cons m ms ih =>
    obtain ⟨k, w⟩ := m
    unfold insert
    split
    · rename_i same
      simp [get?, same]
    · rename_i different
      have other : (key == k) = false := by simpa using fun same => different (Eq.symm same)
      rw [get?, List.lookup_cons, other]
      exact ih

theorem Members.get?_insert_of_ne {ms : Members} {key other : String} (v : Json)
    (different : other ≠ key) : (ms.insert key v).get? other = ms.get? other := by
  induction ms with
  | nil => simp [insert, get?, different]
  | cons m ms ih =>
    obtain ⟨k, w⟩ := m
    unfold insert
    split
    · rename_i same
      have apart : (other == k) = false := by simpa [same] using different
      rw [get?, get?, List.lookup_cons, List.lookup_cons, apart]
    · rw [get?, get?, List.lookup_cons, List.lookup_cons]
      cases other == k with
      | true => rfl
      | false => exact ih

/-- The fields of 32 bits are zero, and as half of a long integer or as an octet the value is as good as
the number zero. -/
structure CountsAsZero (v : Json) : Prop where
  int32 : ∀ path, Scalar.int32.ofJson path v = .ok (0 : Int32)
  uint32 : ∀ path, Scalar.uint32.ofJson path v = .ok (0 : UInt32)
  half : ∀ path (ms : Members) key, key = "low" ∨ key = "high" → ms.get? key = some v →
    Scalar.int64.ofJson path (.obj ms) = Scalar.int64.ofJson path (.obj (ms.insert key (ofInt 0)))
  octet : ∀ path items (i : Nat), items[i]? = some v →
    Scalar.bytes.ofJson path (.arr items) = Scalar.bytes.ofJson path (.arr (items.set i (ofInt 0)))

theorem toInt64_insert {v w : Json} (same : v.toUInt32 = w.toUInt32) {ms : Members} {key : String}
    (half : key = "low" ∨ key = "high") (found : ms.get? key = some v) :
    (Json.obj ms).toInt64 = (Json.obj (ms.insert key w)).toInt64 := by
  rcases half with rfl | rfl
  · have other : (ms.insert "low" w).get? "high" = ms.get? "high" :=
      Members.get?_insert_of_ne w (by decide)
    rw [toInt64, toInt64, found, Members.get?_insert_self, other]
    cases ms.get? "high" with
    | none => rfl
    | some high => exact congrArg (joinHalves high.toUInt32) same
  · have other : (ms.insert "high" w).get? "low" = ms.get? "low" :=
      Members.get?_insert_of_ne w (by decide)
    rw [toInt64, toInt64, found, Members.get?_insert_self, other]
    cases ms.get? "low" with
    | none => rfl
    | some low => exact congrArg (joinHalves · low.toUInt32) same

theorem map_set_of_eq {α β : Type} {f : α → β} {a b : α} (same : f a = f b) {as : List α} {i : Nat}
    (found : as[i]? = some a) : (as.set i b).map f = as.map f := by
  obtain ⟨bound, rfl⟩ := List.getElem?_eq_some_iff.mp found
  rw [List.map_set, ← same, ← List.map_set, List.set_getElem_self]

theorem countsAsZero_of_toUInt32 {v : Json} (zero : v.toUInt32 = 0) : v.CountsAsZero where
  int32 path := by rw [Scalar.ofJson, zero]; rfl
  uint32 path := congrArg Except.ok zero
  half path ms key half found := congrArg Except.ok (toInt64_insert zero half found)
  octet path items i found := by
    refine congrArg Except.ok (Eq.symm (map_set_of_eq ?_ found))
    rw [zero]
    rfl

theorem integerText?_of_not_isDecimal {s : String} (other : ¬ IsDecimal (trimBlanks s.toList)) :
    integerText? s = none :=
  integer?_of_not_isDecimal other

theorem toUInt32_of_not_isDecimal {s : String} (other : ¬ IsDecimal (trimBlanks s.toList)) :
    (Json.str s).toUInt32 = 0 := by
  rw [toUInt32, integerText?_of_not_isDecimal other, Option.filter_none]
  dsimp only
  split
  · rename_i x read
    obtain ⟨negative, same, _⟩ := Extended.namesInfinity_of_read? other read
    cases same
  · rfl

/-- A text that is no decimal counts as zero wherever a 32-bit word is read. Where a long integer is read
it is zero as well, unless it names an infinity, which stands for the least or the greatest one. -/
theorem zero_of_not_isDecimal {s : String} (other : ¬ IsDecimal (trimBlanks s.toList)) :
    (Json.str s).CountsAsZero ∧
    ∀ path,
      ((∀ negative, ¬ NamesInfinity (trimBlanks s.toList) negative) →
        Scalar.int64.ofJson path (.str s) = .ok (0 : Int64)) ∧
      ∀ negative, NamesInfinity (trimBlanks s.toList) negative →
        Scalar.int64.ofJson path (.str s) = .ok (if negative then Int64.minValue else Int64.maxValue) := by
  have long : (Json.str s).toInt64 = ((realText? s).map saturate).getD 0 := by
    rw [toInt64, integerText?_of_not_isDecimal other, Option.filter_none]
  refine ⟨countsAsZero_of_toUInt32 (toUInt32_of_not_isDecimal other), fun path => ⟨?_, ?_⟩⟩
  · intro unnamed
    have unread : realText? s = none := by
      cases read : realText? s with
      | none => rfl
      | some x =>
        obtain ⟨negative, _, named⟩ := Extended.namesInfinity_of_read? other read
        exact absurd named (unnamed negative)
    rw [Scalar.ofJson, long, unread]
    rfl
  · intro negative named
    have read : realText? s = some (.infinite negative) := Extended.read?_of_namesInfinity other named
    rw [Scalar.ofJson, long, read]
    rfl

theorem zero_of_not_isDecimal_words :
    ¬ IsDecimal (trimBlanks " 0x1F".toList) ∧
    Scalar.bytes.ofJson "rawData" (.arr [ofInt 7, .str " 0x1F"]) = .ok [7, 0] ∧
    ¬ IsDecimal (trimBlanks "-Infinity\n".toList) ∧
    Scalar.int32.ofJson "vout" (.str "-Infinity\n") = .ok (0 : Int32) ∧
    Scalar.int64.ofJson "amount" (.str "-Infinity\n") = .ok Int64.minValue := by
  have hex : ¬ IsDecimal (trimBlanks " 0x1F".toList) := by decide +kernel
  have infinite : ¬ IsDecimal (trimBlanks "-Infinity\n".toList) := by decide +kernel
  have named : NamesInfinity (trimBlanks "-Infinity\n".toList) true :=
    .minus (.inr (by decide +kernel))
  obtain ⟨zero, _⟩ := zero_of_not_isDecimal hex
  obtain ⟨word, long⟩ := zero_of_not_isDecimal infinite
  exact ⟨hex, zero.octet "rawData" [ofInt 7, .str " 0x1F"] 1 rfl, infinite, word.int32 "vout",
    (long "amount").2 true named⟩

/-- Not every text without a number is zero as a long integer. -/
theorem infinity_is_greatest_long :
    ¬ IsDecimal (trimBlanks "inf".toList) ∧
    Scalar.int64.ofJson "amount" (.str "inf") = .ok Int64.maxValue ∧
    Scalar.int64.ofJson "amount" (.str "inf") ≠ .ok (0 : Int64) := by
  have long : (Json.str "inf").toInt64 = Int64.maxValue := by decide +kernel
  have read : Scalar.int64.ofJson "amount" (.str "inf") = .ok Int64.maxValue := congrArg Except.ok long
  refine ⟨by decide +kernel, read, ?_⟩
  rw [read]
  intro zero
  exact absurd (Except.ok.inj zero) (by decide : Int64.maxValue ≠ 0)

end Json

end WalletBridge
