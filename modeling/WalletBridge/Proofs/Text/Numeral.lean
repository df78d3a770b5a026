import Mathlib.Data.List.TakeWhile
import WalletBridge.Object.Coerce

namespace WalletBridge

theorem not_isBlank_of_isDigit {c : Char} (digit : c.isDigit = true) : isBlank c = false := by
  have bounds : 48 ≤ c.toNat ∧ c.toNat ≤ 57 := by
    simp only [Char.isDigit, Bool.and_eq_true, decide_eq_true_eq] at digit
    exact ⟨digit.1, digit.2⟩
  simp only [isBlank, Bool.or_eq_false_iff, Bool.and_eq_false_iff, decide_eq_false_iff_not,
    beq_eq_false_iff_ne]
  omega

theorem dropWhile_isBlank_of_none {cs : List Char} (none : ∀ c ∈ cs, isBlank c = false) :
    cs.dropWhile isBlank = cs := by
  cases cs with
  | nil => rfl
  | cons c cs => rw [List.dropWhile_cons, none c (List.mem_cons_self ..), if_neg Bool.false_ne_true]

/-- What stands between blanks and has none itself is what trimming leaves. -/
theorem trimBlanks_append {lead text trail : List Char} (nonempty : text ≠ [])
    (before : ∀ c ∈ lead, isBlank c = true) (inside : ∀ c ∈ text, isBlank c = false)
    (after : ∀ c ∈ trail, isBlank c = true) : trimBlanks (lead ++ text ++ trail) = text := by
  have front : (text ++ trail).dropWhile isBlank = text ++ trail := by
    obtain ⟨c, cs, rfl⟩ := List.exists_cons_of_ne_nil nonempty
    rw [List.cons_append, List.dropWhile_cons, inside c (List.mem_cons_self ..),
      if_neg Bool.false_ne_true]
  have back : (trail.reverse ++ text.reverse).dropWhile isBlank = text.reverse := by
    rw [List.dropWhile_append_of_pos fun c member => after c (List.mem_reverse.mp member)]
    exact dropWhile_isBlank_of_none fun c member => inside c (List.mem_reverse.mp member)
  rw [trimBlanks, List.append_assoc, List.dropWhile_append_of_pos before, front,
    List.reverse_append, back, List.reverse_reverse]

theorem trimBlanks_split (cs : List Char) :
    ∃ lead trail, cs = lead ++ trimBlanks cs ++ trail ∧ (∀ c ∈ lead, isBlank c = true) ∧
      ∀ c ∈ trail, isBlank c = true := by
  let opened := cs.dropWhile isBlank
  refine ⟨cs.takeWhile isBlank, (opened.reverse.takeWhile isBlank).reverse, ?_, ?_, ?_⟩
  · have ends : trimBlanks cs ++ (opened.reverse.takeWhile isBlank).reverse = opened := by
      rw [trimBlanks, ← List.reverse_append, List.takeWhile_append_dropWhile, List.reverse_reverse]
    rw [List.append_assoc, ends, List.takeWhile_append_dropWhile]
  · exact List.all_eq_true.mp List.all_takeWhile
  · exact fun c member => List.all_eq_true.mp List.all_takeWhile c (List.mem_reverse.mp member)

namespace Numeral

structure Digits (cs : List Char) : Prop where
  nonempty : cs ≠ []
  digit : ∀ c ∈ cs, c.isDigit = true

inductive Spells : List Char → Int → Prop
  | plain {cs : List Char} (digits : Digits cs) : Spells cs (Nat.ofDigitChars 10 cs 0)
  | plus {cs : List Char} (digits : Digits cs) : Spells ('+' :: cs) (Nat.ofDigitChars 10 cs 0)
  | minus {cs : List Char} (digits : Digits cs) : Spells ('-' :: cs) (-Nat.ofDigitChars 10 cs 0)

theorem natural?_of_digits {cs : List Char} (digits : Digits cs) :
    natural? cs = some (Nat.ofDigitChars 10 cs 0) := by
  have all : cs.all Char.isDigit = true := List.all_eq_true.mpr digits.digit
  rw [natural?, if_pos ⟨digits.nonempty, all⟩]
  rfl

theorem digits_of_natural? {cs : List Char} {n : Nat} (read : natural? cs = some n) :
    Digits cs ∧ n = Nat.ofDigitChars 10 cs 0 := by
  unfold natural? at read
  split at read
  · rename_i shape
    exact ⟨⟨shape.1, List.all_eq_true.mp shape.2⟩, (Option.some.inj read).symm⟩
  · cases read

theorem splitSign_of_digits {cs : List Char} (digits : Digits cs) : splitSign cs = (false, cs) := by
  unfold splitSign
  split
  · have digit := digits.digit '-' (List.mem_cons_self ..)
    cases digit
  · have digit := digits.digit '+' (List.mem_cons_self ..)
    cases digit
  · rfl

theorem integer?_of_spells {cs : List Char} {n : Int} (spells : Spells cs n) :
    integer? cs = some n := by
  cases spells with
  | plain digits => simp [integer?, splitSign_of_digits digits, natural?_of_digits digits]
  | plus digits => simp [integer?, splitSign, natural?_of_digits digits]
  | minus digits => simp [integer?, splitSign, natural?_of_digits digits]

theorem integer?_eq (cs : List Char) :
    integer? cs = (natural? (splitSign cs).2).map fun n : Nat =>
      if (splitSign cs).1 then -(n : Int) else n := by
  unfold integer?
  obtain ⟨negative, rest⟩ := splitSign cs
  dsimp only
  cases natural? rest <;> rfl

theorem spells_of_integer? {cs : List Char} {n : Int} (read : integer? cs = some n) :
    Spells cs n := by
  rw [integer?_eq] at read
  obtain ⟨value, natural, rfl⟩ := Option.map_eq_some_iff.mp read
  obtain ⟨digits, rfl⟩ := digits_of_natural? natural
  revert digits
  fun_cases splitSign cs with
  | case1 => exact .minus
  | case2 => exact .plus
  | case3 => exact .plain

theorem decimal?_of_digits {cs rest : List Char} {negative : Bool}
    (sign : splitSign cs = (negative, rest)) (digits : Digits rest) :
    decimal? cs = some ⟨negative, Nat.ofDigitChars 10 rest 0, 0⟩ := by
  have whole : rest.takeWhile Char.isDigit = rest := List.takeWhile_eq_self_iff.mpr digits.digit
  have tail : rest.dropWhile Char.isDigit = [] := List.dropWhile_eq_nil_iff.mpr digits.digit
  simp only [decimal?, sign, whole, tail, List.append_nil, if_neg digits.nonempty]
  rfl

/-- The text of an integer is that of a decimal without fraction and exponent. -/
theorem exists_decimal_of_spells {cs : List Char} {n : Int} (spells : Spells cs n) :
    ∃ negative, decimal? cs = some ⟨negative, n.natAbs, 0⟩ ∧
      (if negative then -n.natAbs else n.natAbs : Int) = n := by
  cases spells with
  | plain digits => exact ⟨false, decimal?_of_digits (splitSign_of_digits digits) digits, rfl⟩
  | plus digits => exact ⟨false, decimal?_of_digits rfl digits, rfl⟩
  | minus digits =>
    rw [Int.natAbs_neg]
    exact ⟨true, decimal?_of_digits rfl digits, rfl⟩

theorem decimal?_of_spells {cs : List Char} {n : Int} (spells : Spells cs n) (positive : 0 < n) :
    decimal? cs = some ⟨false, n.toNat, 0⟩ := by
  obtain ⟨negative, read, sign⟩ := exists_decimal_of_spells spells
  cases negative with
  | false =>
    have natural : n.toNat = n.natAbs := by omega
    rw [read, natural]
  | true =>
    simp only [if_true] at sign
    omega

theorem Spells.ne_nil {cs : List Char} {n : Int} (spells : Spells cs n) : cs ≠ [] := by
  cases spells with
  | plain digits => exact digits.nonempty
  | plus _ | minus _ => exact List.cons_ne_nil _ _

theorem not_isBlank_of_spells {cs : List Char} {n : Int} (spells : Spells cs n) :
    ∀ c ∈ cs, isBlank c = false := by
  have sign (c : Char) (sign : c = '+' ∨ c = '-') : isBlank c = false := by
    rcases sign with rfl | rfl <;> decide
  cases spells with
  | plain digits => exact fun c member => not_isBlank_of_isDigit (digits.digit c member)
  | plus digits =>
    intro c member
    rcases List.mem_cons.mp member with rfl | member
    · exact sign _ (.inl rfl)
    · exact not_isBlank_of_isDigit (digits.digit c member)
  | minus digits =>
    intro c member
    rcases List.mem_cons.mp member with rfl | member
    · exact sign _ (.inr rfl)
    · exact not_isBlank_of_isDigit (digits.digit c member)

theorem digits_toDigits (n : Nat) : Digits (Nat.toDigits 10 n) :=
  ⟨Nat.toDigits_ne_nil, fun _ member => Nat.isDigit_of_mem_toDigits (by decide) (by decide) member⟩

/-- An integer's own text, as numbers are printed, is one of its spellings. -/
theorem spells_toString (n : Int) : Spells (toString n).toList n := by
  rw [Int.toString_eq_repr, Int.repr_eq_if]
  split
  · rename_i nonneg
    have spelled := Spells.plain (digits_toDigits n.toNat)
    rw [Nat.ofDigitChars_ten_toDigits, Int.toNat_of_nonneg nonneg] at spelled
    rw [Nat.toList_repr]
    exact spelled
  · rename_i negative
    have spelled := Spells.minus (digits_toDigits (-n).toNat)
    rw [Nat.ofDigitChars_ten_toDigits, Int.toNat_of_nonneg (by omega), Int.neg_neg] at spelled
    rw [String.toList_append, Nat.toList_repr]
    exact spelled

end Numeral

namespace Json

theorem fitsSigned_toInt (v : Int64) : fitsSigned v.toInt = true := by
  have low := v.le_toInt
  have high := v.toInt_lt
  simp only [fitsSigned, Bool.and_eq_true, decide_eq_true_eq]
  exact ⟨low, high⟩

def Spells (s : String) (n : Int) : Prop :=
  ∃ lead numeral trail, s.toList = lead ++ numeral ++ trail ∧ (∀ c ∈ lead, isBlank c = true) ∧
    (∀ c ∈ trail, isBlank c = true) ∧ Numeral.Spells numeral n

theorem integerText?_eq_some_iff {s : String} {n : Int} : integerText? s = some n ↔ Spells s n := by
  constructor
  · intro read
    obtain ⟨lead, trail, whole, before, after⟩ := trimBlanks_split s.toList
    exact ⟨lead, _, trail, whole, before, after, Numeral.spells_of_integer? read⟩
  · intro ⟨lead, numeral, trail, whole, before, after, spells⟩
    rw [integerText?, whole,
      trimBlanks_append spells.ne_nil before (Numeral.not_isBlank_of_spells spells) after]
    exact Numeral.integer?_of_spells spells

theorem spells_toString (n : Int) : Spells (toString n) n :=
  ⟨[], (toString n).toList, [], by simp, by simp, by simp, Numeral.spells_toString n⟩

end Json

end WalletBridge
