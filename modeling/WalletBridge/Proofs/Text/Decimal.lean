import WalletBridge.Proofs.Text.Numeral

namespace WalletBridge

namespace Numeral

inductive IsSign : List Char → Prop
  | none : IsSign []
  | plus : IsSign ['+']
  | minus : IsSign ['-']

inductive IsMantissa : List Char → Prop
  | integer {cs : List Char} (digits : Digits cs) : IsMantissa cs
  | point {whole fraction : List Char} (before : ∀ c ∈ whole, c.isDigit = true)
      (after : ∀ c ∈ fraction, c.isDigit = true) (nonempty : whole ++ fraction ≠ []) :
      IsMantissa (whole ++ '.' :: fraction)

inductive IsExponent : List Char → Prop
  | none : IsExponent []
  | some {mark : Char} {sign cs : List Char} (marked : mark = 'e' ∨ mark = 'E')
      (signed : IsSign sign) (digits : Digits cs) : IsExponent (mark :: (sign ++ cs))

def IsDecimal (cs : List Char) : Prop :=
  ∃ sign mantissa exponent, cs = sign ++ mantissa ++ exponent ∧ IsSign sign ∧ IsMantissa mantissa ∧
    IsExponent exponent

def IsInfinity (cs : List Char) : Prop :=
  String.ofList (cs.map Char.toLower) = "inf" ∨ String.ofList (cs.map Char.toLower) = "infinity"

inductive NamesInfinity : List Char → (negative : Bool) → Prop
  | plain {cs : List Char} (word : IsInfinity cs) : NamesInfinity cs false
  | plus {cs : List Char} (word : IsInfinity cs) : NamesInfinity ('+' :: cs) false
  | minus {cs : List Char} (word : IsInfinity cs) : NamesInfinity ('-' :: cs) true

theorem isSign_splitSign (cs : List Char) : ∃ sign, IsSign sign ∧ cs = sign ++ (splitSign cs).2 := by
  fun_cases splitSign cs with
  | case1 rest => exact ⟨['-'], .minus, rfl⟩
  | case2 rest => exact ⟨['+'], .plus, rfl⟩
  | case3 => exact ⟨[], .none, rfl⟩

theorem Spells.parts {cs : List Char} {n : Int} (spells : Spells cs n) :
    ∃ sign digits, cs = sign ++ digits ∧ IsSign sign ∧ Digits digits := by
  cases spells with
  | plain digits => exact ⟨[], cs, rfl, .none, digits⟩
  | plus digits => exact ⟨['+'], _, rfl, .plus, digits⟩
  | minus digits => exact ⟨['-'], _, rfl, .minus, digits⟩

theorem isDecimal_of_spells {cs : List Char} {n : Int} (spells : Spells cs n) : IsDecimal cs := by
  obtain ⟨sign, digits, rfl, signed, all⟩ := spells.parts
  exact ⟨sign, digits, [], (List.append_nil _).symm, signed, .integer all, .none⟩

theorem isExponent_of_exponent? {cs : List Char} {e : Int} (read : exponent? cs = some e) :
    IsExponent cs := by
  cases cs with
  | nil => exact .none
  | cons mark rest =>
    rw [exponent?] at read
    split at read
    · rename_i marked
      obtain ⟨sign, digits, rfl, signed, all⟩ := (spells_of_integer? read).parts
      exact .some marked signed all
    · cases read

theorem digits_takeWhile (cs : List Char) : ∀ c ∈ cs.takeWhile Char.isDigit, c.isDigit = true :=
  List.all_eq_true.mp List.all_takeWhile

theorem isDecimal_of_decimal? {cs : List Char} {d : Decimal} (read : decimal? cs = some d) :
    IsDecimal cs := by
  obtain ⟨sign, signed, text⟩ := isSign_splitSign cs
  rcases split : splitSign cs with ⟨negative, rest⟩
  rw [split] at text
  have before := digits_takeWhile rest
  simp only [decimal?, split] at read
  split at read
  · rename_i after point
    split at read
    · cases read
    · rename_i nonempty
      obtain ⟨e, read, _⟩ := Option.map_eq_some_iff.mp read
      refine ⟨sign, _, _, ?_, signed, .point before (digits_takeWhile after) nonempty,
        isExponent_of_exponent? read⟩
      rw [text, List.append_assoc, List.append_assoc, List.cons_append,
        List.takeWhile_append_dropWhile, ← point, List.takeWhile_append_dropWhile]
  · split at read
    · cases read
    · rename_i nonempty
      obtain ⟨e, read, _⟩ := Option.map_eq_some_iff.mp read
      rw [List.append_nil] at nonempty
      refine ⟨sign, _, _, ?_, signed, .integer ⟨nonempty, before⟩, isExponent_of_exponent? read⟩
      rw [text, List.append_assoc, List.takeWhile_append_dropWhile]

theorem exponent?_of_isExponent {cs : List Char} (exponent : IsExponent cs) :
    (exponent? cs).isSome = true := by
  cases exponent with
  | none => rfl
  | some marked signed digits =>
    rw [exponent?, if_pos marked]
    cases signed with
    | none => exact Option.isSome_of_eq_some (integer?_of_spells (.plain digits))
    | plus => exact Option.isSome_of_eq_some (integer?_of_spells (.plus digits))
    | minus => exact Option.isSome_of_eq_some (integer?_of_spells (.minus digits))

theorem split_digits {digits rest : List Char} (all : ∀ c ∈ digits, c.isDigit = true)
    (stop : ∀ c ∈ rest.head?, c.isDigit = false) :
    (digits ++ rest).takeWhile Char.isDigit = digits ∧
      (digits ++ rest).dropWhile Char.isDigit = rest := by
  rw [List.takeWhile_append_of_pos all, List.dropWhile_append_of_pos all]
  cases rest with
  | nil => exact ⟨List.append_nil _, rfl⟩
  | cons c cs =>
    have other := stop c rfl
    rw [List.takeWhile_cons, List.dropWhile_cons, other]
    exact ⟨List.append_nil _, rfl⟩

theorem IsExponent.not_digit {cs : List Char} (exponent : IsExponent cs) :
    ∀ c ∈ cs.head?, c.isDigit = false ∧ c ≠ '.' := by
  intro c first
  cases exponent with
  | none => cases first
  | some marked signed digits =>
    cases first
    rcases marked with rfl | rfl <;> decide

/-- What follows the sign is read alike whatever the sign is. -/
theorem decimal?_isSome_of_rest {rest : List Char} {exponent : List Char}
    (mantissa : IsMantissa rest) (exponential : IsExponent exponent) {cs : List Char}
    {negative : Bool} (sign : splitSign cs = (negative, rest ++ exponent)) :
    (decimal? cs).isSome = true := by
  have read := exponent?_of_isExponent exponential
  have stop := exponential.not_digit
  cases mantissa with
  | integer digits =>
    obtain ⟨whole, tail⟩ := split_digits digits.digit fun c first => (stop c first).1
    simp only [decimal?, sign, whole, tail]
    split
    · exact absurd rfl (stop '.' rfl).2
    · rw [List.append_nil, if_neg digits.nonempty, Option.isSome_map]
      exact read
  | @point integral fraction before after nonempty =>
    rw [List.append_assoc, List.cons_append] at sign
    have point : ∀ c ∈ ('.' :: (fraction ++ exponent)).head?, c.isDigit = false := by
      intro c first
      cases first
      decide
    obtain ⟨whole, tail⟩ := split_digits before point
    obtain ⟨digits, later⟩ := split_digits after fun c first => (stop c first).1
    simp only [decimal?, sign, whole, tail, digits, later]
    rw [if_neg nonempty, Option.isSome_map]
    exact read

theorem ne_sign_of_isDigit {c : Char} (digit : c.isDigit = true) : c ≠ '-' ∧ c ≠ '+' := by
  constructor
  all_goals
    rintro rfl
    cases digit

theorem IsMantissa.starts {cs : List Char} (mantissa : IsMantissa cs) :
    ∃ c more, cs = c :: more ∧ c ≠ '-' ∧ c ≠ '+' := by
  cases mantissa with
  | integer digits =>
    obtain ⟨c, more, rfl⟩ := List.exists_cons_of_ne_nil digits.nonempty
    exact ⟨c, more, rfl, ne_sign_of_isDigit (digits.digit c (List.mem_cons_self ..))⟩
  | @point whole fraction before after nonempty =>
    cases whole with
    | nil => exact ⟨'.', fraction, rfl, by decide, by decide⟩
    | cons c more =>
      exact ⟨c, more ++ '.' :: fraction, rfl, ne_sign_of_isDigit (before c (List.mem_cons_self ..))⟩

theorem IsMantissa.splitSign_append {cs : List Char} (mantissa : IsMantissa cs)
    (rest : List Char) : splitSign (cs ++ rest) = (false, cs ++ rest) := by
  obtain ⟨c, more, rfl, minus, plus⟩ := mantissa.starts
  rw [List.cons_append]
  unfold splitSign
  split
  · rename_i same
    exact absurd (List.cons.inj same).1 minus
  · rename_i same
    exact absurd (List.cons.inj same).1 plus
  · rfl

theorem isDecimal_iff {cs : List Char} : IsDecimal cs ↔ (decimal? cs).isSome = true := by
  constructor
  · rintro ⟨sign, mantissa, exponent, rfl, signed, digits, exponential⟩
    rw [List.append_assoc]
    cases signed with
    | none => exact decimal?_isSome_of_rest digits exponential (digits.splitSign_append exponent)
    | plus => exact decimal?_isSome_of_rest digits exponential rfl
    | minus => exact decimal?_isSome_of_rest digits exponential rfl
  · intro read
    exact isDecimal_of_decimal? (Option.eq_some_of_isSome read)

instance (cs : List Char) : Decidable (IsDecimal cs) :=
  decidable_of_iff _ isDecimal_iff.symm

theorem decimal?_of_not_isDecimal {cs : List Char} (other : ¬ IsDecimal cs) : decimal? cs = none := by
  cases read : decimal? cs with
  | none => rfl
  | some d => exact absurd (isDecimal_of_decimal? read) other

theorem integer?_of_not_isDecimal {cs : List Char} (other : ¬ IsDecimal cs) : integer? cs = none := by
  cases read : integer? cs with
  | none => rfl
  | some n => exact absurd (isDecimal_of_spells (spells_of_integer? read)) other

theorem toLower_of_isInfinity {c : Char} {cs : List Char} (word : IsInfinity (c :: cs)) :
    c.toLower = 'i' := by
  rcases word with word | word
  all_goals
    have first := congrArg (fun s => s.toList.head?) word
    simpa using first

theorem splitSign_of_isInfinity {cs : List Char} (word : IsInfinity cs) :
    splitSign cs = (false, cs) := by
  fun_cases splitSign cs with
  | case1 rest => exact absurd (toLower_of_isInfinity word) (by decide)
  | case2 rest => exact absurd (toLower_of_isInfinity word) (by decide)
  | case3 => rfl

theorem namesInfinity_of_splitSign {cs : List Char} (word : IsInfinity (splitSign cs).2) :
    NamesInfinity cs (splitSign cs).1 := by
  revert word
  fun_cases splitSign cs with
  | case1 rest => exact .minus
  | case2 rest => exact .plus
  | case3 => exact .plain

end Numeral

namespace Extended

open Numeral

theorem read?_of_namesInfinity {cs : List Char} {negative : Bool} (other : ¬ IsDecimal cs)
    (named : NamesInfinity cs negative) : read? cs = some (.infinite negative) := by
  rw [read?, decimal?_of_not_isDecimal other]
  cases named with
  | plain word =>
    simp only [splitSign_of_isInfinity word]
    exact if_pos word
  | plus word => exact if_pos word
  | minus word => exact if_pos word

/-- Besides decimals only the names of the infinities are read. -/
theorem namesInfinity_of_read? {cs : List Char} {x : Extended} (other : ¬ IsDecimal cs)
    (read : read? cs = some x) : ∃ negative, x = .infinite negative ∧ NamesInfinity cs negative := by
  rw [read?, decimal?_of_not_isDecimal other] at read
  dsimp only at read
  split at read
  · rename_i word
    cases read
    exact ⟨_, rfl, namesInfinity_of_splitSign word⟩
  · cases read

end Extended

end WalletBridge
