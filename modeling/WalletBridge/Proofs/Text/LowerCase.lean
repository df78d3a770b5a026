import Mathlib.Data.List.Forall2
import WalletBridge.Text.LowerCase

namespace WalletBridge.LowerCase

def IsSmall (c : Char) : Prop :=
  c.toNat < 0x80 ∧ c.toLower = c

instance (c : Char) : Decidable (IsSmall c) :=
  inferInstanceAs (Decidable (_ ∧ _))

/-- Each character has itself and its capital as variants, and `k` the Kelvin sign as well. -/
def IsVariant (small c : Char) : Prop :=
  c = small ∨ c = small.toUpper ∨ small = 'k' ∧ c = '\u212a'

/-- Equal but for the case of ASCII letters. -/
theorem toLower_inj {s t : String} :
    s.toLower = t.toLower ↔ s.toList.map Char.toLower = t.toList.map Char.toLower := by
  rw [← String.toList_map, ← String.toList_map]
  exact String.toList_inj.symm

theorem of_ascii {p : Char → Prop} (every : ∀ n : Fin 0x80, p (Char.ofNat n)) {c : Char}
    (ascii : c.toNat < 0x80) : p c := by
  have at_c := every ⟨c.toNat, ascii⟩
  rwa [Char.ofNat_toNat] at at_c

theorem toLower_eq_iff {c small : Char} (ascii : c.toNat < 0x80) (is_small : IsSmall small) :
    c.toLower = small ↔ IsVariant small c := by
  constructor
  · rintro rfl
    have either : c = c.toLower ∨ c = c.toLower.toUpper :=
      of_ascii (p := fun c => c = c.toLower ∨ c = c.toLower.toUpper) (by decide) ascii
    exact either.imp_right .inl
  · rintro (rfl | rfl | ⟨rfl, rfl⟩)
    · exact is_small.2
    · exact of_ascii (p := fun c => c.toLower = c → c.toUpper.toLower = c) (by decide)
        is_small.1 is_small.2
    · exact absurd ascii (by decide)

theorem not_isVariant {c small : Char} (foreign : 0x80 ≤ c.toNat) (other : c ≠ '\u212a')
    (is_small : IsSmall small) : ¬ IsVariant small c := by
  have upper : small.toUpper.toNat < 0x80 :=
    of_ascii (p := fun c => c.toUpper.toNat < 0x80) (by decide) is_small.1
  rintro (rfl | rfl | ⟨rfl, same⟩)
  · exact absurd is_small.1 (Nat.not_lt.mpr foreign)
  · exact absurd upper (Nat.not_lt.mpr foreign)
  · exact other same

theorem toLower_of_foreign {c : Char} (foreign : 0x80 ≤ c.toNat) : c.toLower = c := by
  unfold Char.toLower
  split
  · rename_i capital
    have upper : c.toNat ≤ 90 := UInt32.le_iff_toNat_le.mp capital.2
    omega
  · rfl

theorem eq_or_ascii_of_toLower_eq {c d : Char} (same : c.toLower = d.toLower) :
    c = d ∨ c.toNat < 0x80 ∧ d.toNat < 0x80 := by
  have ascii_toLower {c : Char} (ascii : c.toNat < 0x80) : c.toLower.toNat < 0x80 :=
    of_ascii (p := fun c => c.toLower.toNat < 0x80) (by decide) ascii
  by_cases c_ascii : c.toNat < 0x80
  · by_cases d_ascii : d.toNat < 0x80
    · exact .inr ⟨c_ascii, d_ascii⟩
    · have kept := toLower_of_foreign (Nat.not_lt.mp d_ascii)
      exact absurd (kept ▸ same ▸ ascii_toLower c_ascii) d_ascii
  · have kept := toLower_of_foreign (Nat.not_lt.mp c_ascii)
    by_cases d_ascii : d.toNat < 0x80
    · exact absurd (kept ▸ same ▸ ascii_toLower d_ascii) c_ascii
    · rw [← kept, same, toLower_of_foreign (Nat.not_lt.mp d_ascii)]
      exact .inl rfl

/-- The case of ASCII letters is no matter to what a text is a variant of. -/
theorem isVariant_congr {name text other : List Char} (small : ∀ c ∈ name, IsSmall c)
    (same : text.map Char.toLower = other.map Char.toLower)
    (spelled : List.Forall₂ IsVariant name text) : List.Forall₂ IsVariant name other := by
  induction spelled generalizing other with
  | nil =>
    rw [List.map_eq_nil_iff.mp same.symm]
    exact .nil
  | cons variant spelled ih =>
    obtain ⟨d, other, rfl, same_first, same_later⟩ := List.map_eq_cons_iff.mp same.symm
    obtain ⟨first_small, later_small⟩ := List.forall_mem_cons.mp small
    refine .cons ?_ (ih later_small same_later.symm)
    rcases eq_or_ascii_of_toLower_eq same_first with rfl | ⟨d_ascii, c_ascii⟩
    · exact variant
    · rw [← toLower_eq_iff d_ascii first_small, same_first, toLower_eq_iff c_ascii first_small]
      exact variant

def Outside (first last : Nat) : Prop :=
  0x80 ≤ first ∧ (last < 0xd800 ∨ 0xdfff < first ∧ last < 0x110000)

instance (first last : Nat) : Decidable (Outside first last) :=
  inferInstanceAs (Decidable (_ ∧ _))

theorem Outside.toNat_ofNat {first last n : Nat} (outside : Outside first last) (low : first ≤ n)
    (high : n ≤ last) : 0x80 ≤ (Char.ofNat n).toNat := by
  have valid : n.isValidChar := by
    unfold Outside at outside
    unfold Nat.isValidChar
    omega
  have same : (Char.ofNat n).toNat = n := by
    rw [Char.ofNat, dif_pos valid]
    rfl
  rw [same]
  exact Nat.le_trans outside.1 low

theorem capitals_outside :
    ∀ r ∈ capitals, r = ⟨0x212a, 0x212a, 1, 0x6b⟩ ∨
      Outside r.small (r.small + (r.last - r.first)) := by
  decide +kernel

/-- Only the Kelvin sign becomes a letter of ASCII. -/
theorem ofChar_foreign {c : Char} (foreign : 0x80 ≤ c.toNat) (other : c ≠ '\u212a') :
    ∃ d ∈ ofChar c, 0x80 ≤ d.toNat := by
  unfold ofChar
  rw [if_neg (Nat.not_lt.mpr foreign)]
  split
  · exact ⟨'\u0307', by decide, by decide⟩
  · refine ⟨_, List.mem_singleton_self _, ?_⟩
    cases found : capitals.findSome? (·.small? c.toNat) with
    | none => exact foreign
    | some n =>
      obtain ⟨r, member, small⟩ := List.exists_of_findSome?_eq_some found
      unfold Capitals.small? at small
      split at small
      · rename_i within
        cases small
        rcases capitals_outside r member with rfl | outside
        · have kelvin : c.toNat = 0x212a := Nat.le_antisymm within.2.1 within.1
          have same : c = '\u212a' := Char.ext (UInt32.toNat_inj.mp kelvin)
          exact absurd same other
        · exact outside.toNat_ofNat (by omega) (by omega)
      · cases small

theorem ofChar_kelvin : ofChar '\u212a' = ['k'] := by
  decide +kernel

/-- What a character becomes in a text is a single letter, which tells what the character was, or it is
not all ASCII. -/
theorem image_cases (final : Bool) (c : Char) :
    let image := if c = '\u03a3' ∧ final then ['\u03c2'] else ofChar c
    (∃ d, image = [d] ∧ ∀ small, IsSmall small → (d = small ↔ IsVariant small c)) ∨
      (∃ d ∈ image, 0x80 ≤ d.toNat) ∧ ∀ small, IsSmall small → ¬ IsVariant small c := by
  intro image
  by_cases ascii : c.toNat < 0x80
  · left
    have no_sigma : c ≠ '\u03a3' := by
      rintro rfl
      exact absurd ascii (by decide)
    refine ⟨c.toLower, ?_, fun small is_small => toLower_eq_iff ascii is_small⟩
    rw [show image = ofChar c from if_neg fun sigma => no_sigma sigma.1, ofChar, if_pos ascii]
  · by_cases kelvin : c = '\u212a'
    · left
      subst kelvin
      refine ⟨'k', (if_neg fun sigma => absurd sigma.1 (by decide)).trans ofChar_kelvin, fun small is_small => ?_⟩
      constructor
      · rintro rfl
        exact .inr (.inr ⟨rfl, rfl⟩)
      · rintro (rfl | upper | ⟨rfl, _⟩)
        · exact absurd is_small.1 (by decide)
        · have upper_lt : small.toUpper.toNat < 0x80 :=
            of_ascii (p := fun c => c.toUpper.toNat < 0x80) (by decide) is_small.1
          exact absurd (upper ▸ upper_lt) (by decide)
        · rfl
    · right
      have foreign := Nat.not_lt.mp ascii
      refine ⟨?_, fun small => not_isVariant foreign kelvin⟩
      by_cases sigma : c = '\u03a3' ∧ final
      · rw [show image = ['\u03c2'] from if_pos sigma]
        exact ⟨'\u03c2', by decide, by decide⟩
      · rw [show image = ofChar c from if_neg sigma]
        exact ofChar_foreign foreign kelvin

/-- A text has a plain small form if it spells it letter by letter, wherever words end. -/
theorem ofText_eq_iff {endsWord : List Char → List Char → Bool} {before text name : List Char}
    (small : ∀ c ∈ name, IsSmall c) :
    ofText endsWord before text = name ↔ List.Forall₂ IsVariant name text := by
  induction text generalizing before name with
  | nil => rw [ofText, List.forall₂_nil_right_iff, eq_comm]
  | cons c text ih =>
    rw [ofText]
    rcases image_cases (endsWord before text) c with ⟨d, image, same⟩ | ⟨⟨d, member, foreign⟩, none⟩
    · rw [image]
      cases name with
      | nil => simp
      | cons first name =>
        obtain ⟨first_small, later_small⟩ := List.forall_mem_cons.mp small
        have later : ofText endsWord (c :: before) text = name ↔ List.Forall₂ IsVariant name text :=
          ih later_small
        rw [List.forall₂_cons, ← same first first_small, ← later]
        simp
    · constructor
      · intro same
        have in_name : d ∈ name := same ▸ List.mem_append_left _ member
        exact absurd (small d in_name).1 (Nat.not_lt.mpr foreign)
      · intro spelled
        cases spelled with
        | cons first later => exact absurd first (none _ (small _ (List.mem_cons_self ..)))

end WalletBridge.LowerCase
