import Mathlib.Algebra.Group.Nat.Even
import WalletBridge.Text.Hex

namespace WalletBridge.Hex

theorem value?_digit {n : Nat} (bound : n < 16) : value? (digit n) = some n := by
  have every : ∀ n : Fin 16, value? (digit n) = some n.val := by decide
  exact every ⟨n, bound⟩

theorem bytes?_pair (b : UInt8) (rest : List Char) :
    bytes? (pair b ++ rest) = (bytes? rest).map (b :: ·) := by
  have bound := b.toNat_lt
  have halves : 16 * (b.toNat / 16) + b.toNat % 16 = b.toNat := by omega
  simp only [pair, List.cons_append, List.nil_append, bytes?,
    value?_digit (n := b.toNat / 16) (by omega), value?_digit (n := b.toNat % 16) (by omega), halves,
    UInt8.ofNat_toNat]

theorem bytes?_flatMap_pair (b : Bytes) : bytes? (b.flatMap pair) = some b := by
  induction b with
  | nil => rfl
  | cons a b ih => rw [List.flatMap_cons, bytes?_pair, ih, Option.map_some]

theorem toList_encode (b : Bytes) : (encode b).toList = b.flatMap pair :=
  String.toList_ofList

theorem decode_encode (b : Bytes) : decode (encode b) = .ok b := by
  rw [decode, toList_encode, decodeChars, bytes?_flatMap_pair]

theorem decode_eq_ok_iff {s : String} {b : Bytes} : decode s = .ok b ↔ bytes? s.toList = some b := by
  unfold decode decodeChars
  cases bytes? s.toList <;> simp

theorem decode_of_unread {s : String} (unread : bytes? s.toList = none) :
    decode s = .error .malformed := by
  rw [decode, decodeChars, unread]

def IsDigit (c : Char) : Prop :=
  '0' ≤ c ∧ c ≤ '9' ∨ 'a' ≤ c ∧ c ≤ 'f' ∨ 'A' ≤ c ∧ c ≤ 'F'

instance (c : Char) : Decidable (IsDigit c) :=
  inferInstanceAs (Decidable (_ ∨ _ ∨ _))

def IsText (cs : List Char) : Prop :=
  Even cs.length ∧ ∀ c ∈ cs, IsDigit c

instance (cs : List Char) : Decidable (IsText cs) :=
  @instDecidableAnd _ _ inferInstance (List.decidableBAll IsDigit cs)

theorem value?_isSome_iff {c : Char} : (value? c).isSome ↔ IsDigit c := by
  unfold value? IsDigit
  split
  · simp [*]
  · split
    · simp [*]
    · split <;> simp [*]

/-- A digit's value is written as the digit in lower case. -/
theorem digit_of_value? {c : Char} {n : Nat} (read : value? c = some n) :
    n < 16 ∧ digit n = c.toLower := by
  have ascii : c.toNat < 128 := by
    have below {last : Char} (upper : c ≤ last) (bound : last.toNat < 128) : c.toNat < 128 :=
      Nat.lt_of_le_of_lt (UInt32.le_iff_toNat_le.mp (Char.le_def.mp upper)) bound
    rcases value?_isSome_iff.mp (Option.isSome_of_eq_some read) with
      ⟨_, upper⟩ | ⟨_, upper⟩ | ⟨_, upper⟩ <;> exact below upper (by decide)
  have every : ∀ m : Fin 128, ∀ v ∈ value? (Char.ofNat m),
      v < 16 ∧ digit v = (Char.ofNat m).toLower := by decide
  have at_c := every ⟨c.toNat, ascii⟩ n
  rw [Char.ofNat_toNat c] at at_c
  exact at_c read

theorem pair_ofNat {high low : Nat} (high_lt : high < 16) (low_lt : low < 16) :
    pair (UInt8.ofNat (16 * high + low)) = [digit high, digit low] := by
  have whole : (UInt8.ofNat (16 * high + low)).toNat = 16 * high + low :=
    UInt8.toNat_ofNat_of_lt' (by rw [UInt8.size]; omega)
  have upper : (16 * high + low) / 16 = high := by omega
  have lower : (16 * high + low) % 16 = low := by omega
  rw [pair, whole, upper, lower]

theorem not_isText_single (c : Char) : ¬ IsText [c] := fun spelled => by
  simpa using spelled.1

theorem isText_cons_cons_iff {high low : Char} {rest : List Char} :
    IsText (high :: low :: rest) ↔ IsDigit high ∧ IsDigit low ∧ IsText rest := by
  have shorter : Even (high :: low :: rest).length ↔ Even rest.length := by
    simp [Nat.even_add_one]
  simp only [IsText, shorter, List.forall_mem_cons]
  exact ⟨fun ⟨even, first, second, later⟩ => ⟨first, second, even, later⟩,
    fun ⟨first, second, even, later⟩ => ⟨even, first, second, later⟩⟩

theorem exists_bytes? {cs : List Char} (spelled : IsText cs) : ∃ b, bytes? cs = some b := by
  fun_induction bytes? cs with
  | case1 => exact ⟨[], rfl⟩
  | case2 c => exact absurd spelled (not_isText_single c)
  | case3 high low rest h l value_low value_high ih =>
    obtain ⟨b, read⟩ := ih (isText_cons_cons_iff.mp spelled).2.2
    exact ⟨_, by rw [read, Option.map_some]⟩
  | case4 high low rest unread =>
    obtain ⟨first, second, _⟩ := isText_cons_cons_iff.mp spelled
    obtain ⟨h, value_high⟩ := Option.isSome_iff_exists.mp (value?_isSome_iff.mpr first)
    obtain ⟨l, value_low⟩ := Option.isSome_iff_exists.mp (value?_isSome_iff.mpr second)
    exact (unread h l value_high value_low).elim

/-- What is read is how the bytes are written, but for the case of the digits. -/
theorem isText_of_bytes? {cs : List Char} {b : Bytes} (read : bytes? cs = some b) :
    IsText cs ∧ b.flatMap pair = cs.map Char.toLower := by
  fun_induction bytes? cs generalizing b with
  | case1 =>
    cases read
    exact ⟨by decide, rfl⟩
  | case2 c => cases read
  | case3 high low rest h l value_low value_high ih =>
    obtain ⟨later, read_later, rfl⟩ := Option.map_eq_some_iff.mp read
    obtain ⟨spelled, written⟩ := ih read_later
    obtain ⟨high_lt, digit_high⟩ := digit_of_value? value_high
    obtain ⟨low_lt, digit_low⟩ := digit_of_value? value_low
    refine ⟨isText_cons_cons_iff.mpr ⟨?_, ?_, spelled⟩, ?_⟩
    · exact value?_isSome_iff.mp (Option.isSome_of_eq_some value_high)
    · exact value?_isSome_iff.mp (Option.isSome_of_eq_some value_low)
    · rw [List.flatMap_cons, pair_ofNat high_lt low_lt, written, digit_high, digit_low]
      rfl
  | case4 high low rest unread => cases read

theorem exists_decode_iff {s : String} : (∃ b, decode s = .ok b) ↔ IsText s.toList := by
  simp only [decode_eq_ok_iff]
  exact ⟨fun ⟨b, read⟩ => (isText_of_bytes? read).1, exists_bytes?⟩

theorem encode_of_decode {s : String} {b : Bytes} (read : decode s = .ok b) :
    encode b = s.toLower := by
  obtain ⟨_, written⟩ := isText_of_bytes? (decode_eq_ok_iff.mp read)
  apply String.toList_inj.mp
  rw [toList_encode, written]
  exact String.toList_map.symm

theorem decode_eq_ok_iff_written {s : String} {b : Bytes} :
    decode s = .ok b ↔ IsText s.toList ∧ encode b = s.toLower := by
  constructor
  · intro read
    exact ⟨exists_decode_iff.mp ⟨b, read⟩, encode_of_decode read⟩
  · rintro ⟨spelled, written⟩
    obtain ⟨other, read⟩ := exists_decode_iff.mpr spelled
    have same : decode (encode other) = decode (encode b) := by rw [encode_of_decode read, written]
    rw [decode_encode, decode_encode] at same
    rw [read, same]

theorem decode_of_not_isText {s : String} (garbled : ¬ IsText s.toList) :
    decode s = .error .malformed := by
  cases read : bytes? s.toList with
  | none => exact decode_of_unread read
  | some b => exact absurd (isText_of_bytes? read).1 garbled

def markers : List String :=
  ["0x", "0X"]

theorem mem_markers_iff {mark : String} : mark ∈ markers ↔ mark = "0x" ∨ mark = "0X" := by
  simp [markers]

theorem decodeAuto_marker {mark : String} (known : mark ∈ markers) (s : String) :
    decodeAuto (mark ++ s) = decode s := by
  rw [decodeAuto, String.toList_append]
  rcases mem_markers_iff.mp known with rfl | rfl <;> rfl

theorem decodeAuto_of_unmarked {s : String} (unmarked : ∀ mark ∈ markers, ¬ mark.toList <+: s.toList)
    (nonzero : s ≠ "0") : decodeAuto s = decode s := by
  unfold decodeAuto decode
  split
  · rename_i rest marked
    exact absurd ⟨rest, marked.symm⟩ (unmarked "0x" (by decide))
  · rename_i rest marked
    exact absurd ⟨rest, marked.symm⟩ (unmarked "0X" (by decide))
  · rename_i zero
    exact absurd (String.toList_inj.mp zero) nonzero
  · rfl

theorem not_isText_marker {mark : String} (known : mark ∈ markers) (rest : List Char) :
    ¬ IsText (mark.toList ++ rest) := by
  intro spelled
  have letter : ∃ c ∈ mark.toList, ¬ IsDigit c := by
    rcases mem_markers_iff.mp known with rfl | rfl
    · exact ⟨'x', by decide, by decide⟩
    · exact ⟨'X', by decide, by decide⟩
  obtain ⟨c, member, foreign⟩ := letter
  exact foreign (spelled.2 c (List.mem_append_left _ member))

/-- Digits alone are read alike, as no marker is made of digits. -/
theorem decodeAuto_of_decode {s : String} {b : Bytes} (read : decode s = .ok b) :
    decodeAuto s = .ok b := by
  have spelled : IsText s.toList := exists_decode_iff.mp ⟨b, read⟩
  have unmarked : ∀ mark ∈ markers, ¬ mark.toList <+: s.toList := by
    rintro mark known ⟨rest, marked⟩
    exact not_isText_marker known rest (marked ▸ spelled)
  have nonzero : s ≠ "0" := by
    rintro rfl
    exact not_isText_single '0' spelled
  rw [decodeAuto_of_unmarked unmarked nonzero, read]

theorem decodeAuto_encode (b : Bytes) : decodeAuto (encode b) = .ok b :=
  decodeAuto_of_decode (decode_encode b)

theorem decodeAuto_encodeMarked (b : Bytes) : decodeAuto (encodeMarked b) = .ok b := by
  rw [encodeMarked, decodeAuto_marker (by decide), decode_encode]

theorem encode_eq_empty_iff {b : Bytes} : encode b = "" ↔ b = [] := by
  constructor
  · intro empty
    have back := decode_encode b
    rw [empty] at back
    exact (Except.ok.inj back).symm
  · intro nil
    rw [nil]
    rfl

end WalletBridge.Hex
