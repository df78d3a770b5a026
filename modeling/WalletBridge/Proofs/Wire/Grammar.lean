import WalletBridge.Proofs.Result
import WalletBridge.Wire.Skip

namespace WalletBridge.Wire

namespace Varint

/-- At most `count` digits of seven bits, the least significant first, and all but the last marked. The
last one that may stand there is at most one. -/
inductive Digits : (count : Nat) → Bytes → Nat → Prop
  | last {more : Nat} {b : UInt8} (unmarked : b < 0x80) (fits : more = 0 → b ≤ 1) :
      Digits (more + 1) [b] b.toNat
  | next {more n : Nat} {b : UInt8} {bs : Bytes} (marked : ¬ b < 0x80) (digits : Digits more bs n) :
      Digits (more + 1) (b :: bs) (b.toNat % 128 + 128 * n)

def Spells (bs : Bytes) (n : Nat) : Prop :=
  Digits 10 bs n

theorem readFrom?_of_digits {count n : Nat} {bs : Bytes} (digits : Digits count bs n) (rest : Bytes) :
    readFrom? count (bs ++ rest) = some (n, rest) := by
  induction digits with
  | last unmarked fits =>
    rename_i more b
    have small : ¬ (more = 0 ∧ 1 < b) := fun ⟨zero, large⟩ => UInt8.not_lt.mpr (fits zero) large
    rw [List.singleton_append, readFrom?, if_pos unmarked, if_neg small]
  | next marked _ ih => rw [List.cons_append, readFrom?, if_neg marked, ih, Option.map_some]

theorem digits_of_readFrom? {count n : Nat} {bs rest : Bytes}
    (read : readFrom? count bs = some (n, rest)) : ∃ head, Digits count head n ∧ bs = head ++ rest := by
  induction count generalizing n bs with
  | zero => cases read
  | succ more ih =>
    cases bs with
    | nil => cases read
    | cons b bs =>
      rw [readFrom?] at read
      split at read
      · rename_i unmarked
        split at read
        · cases read
        · rename_i small
          cases read
          have fits : more = 0 → b ≤ 1 := fun zero => UInt8.not_lt.mp fun large => small ⟨zero, large⟩
          exact ⟨[b], .last unmarked fits, rfl⟩
      · rename_i marked
        obtain ⟨⟨m, later⟩, inner, same⟩ := Option.map_eq_some_iff.mp read
        cases same
        obtain ⟨head, digits, rfl⟩ := ih inner
        exact ⟨b :: head, .next marked digits, rfl⟩

theorem read_eq_ok_iff {n : Nat} {bs rest : Bytes} :
    read bs = .ok (n, rest) ↔ ∃ head, Spells head n ∧ bs = head ++ rest := by
  constructor
  · intro found
    rw [read] at found
    split at found
    · rename_i digits
      cases found
      exact digits_of_readFrom? digits
    · cases found
  · rintro ⟨head, spells, rfl⟩
    rw [read, readFrom?_of_digits spells]

theorem Spells.of_read {bs : Bytes} {n : Nat} (whole : read bs = .ok (n, [])) : Spells bs n := by
  obtain ⟨head, spells, rfl⟩ := read_eq_ok_iff.mp whole
  rwa [List.append_nil]

theorem Spells.ne_nil {bs : Bytes} {n : Nat} (spells : Spells bs n) : bs ≠ [] := by
  cases spells <;> exact List.cons_ne_nil _ _

end Varint

namespace Key

structure Spells (bs : Bytes) (key : Key) : Prop where
  digits : Varint.Spells bs (key.tag * 8 + key.wireType.code)
  tag_pos : 0 < key.tag
  tag_lt : key.tag < 1 <<< 29

theorem code_of_ofCode? {n : Nat} {w : WireType} (read : WireType.ofCode? n = some w) : w.code = n := by
  unfold WireType.ofCode? at read
  split at read
  all_goals cases read
  all_goals rfl

theorem ofNat_eq_ok_iff {n : Nat} {key : Key} :
    ofNat n = .ok key ↔ n = key.tag * 8 + key.wireType.code ∧ 0 < key.tag ∧ key.tag < 1 <<< 29 := by
  constructor
  · intro read
    unfold ofNat at read
    split at read
    · cases read
    · split at read
      · cases read
      · rename_i w known
        have code := code_of_ofCode? known
        split at read
        · cases read
        · cases read
          dsimp only
          omega
  · rintro ⟨rfl, positive, bound⟩
    have code : key.wireType.code < 8 := by cases key.wireType <;> decide
    have fits : ¬ 0x100000000 ≤ key.tag * 8 + key.wireType.code := by omega
    have low : (key.tag * 8 + key.wireType.code) % 8 = key.wireType.code := by omega
    have high : (key.tag * 8 + key.wireType.code) / 8 = key.tag := by omega
    have nonzero : key.tag ≠ 0 := by omega
    simp only [ofNat, if_neg fits, low, WireType.ofCode?_code, high, if_neg nonzero]

theorem read_eq_ok_iff {key : Key} {bs rest : Bytes} :
    read bs = .ok (key, rest) ↔ ∃ head, Spells head key ∧ bs = head ++ rest := by
  constructor
  · intro found
    obtain ⟨⟨n, later⟩, number, found⟩ := Except.bind_eq_ok_iff.mp found
    obtain ⟨k, known, same⟩ := Except.bind_eq_ok_iff.mp found
    cases same
    obtain ⟨head, digits, rfl⟩ := Varint.read_eq_ok_iff.mp number
    obtain ⟨rfl, positive, bound⟩ := ofNat_eq_ok_iff.mp known
    exact ⟨head, ⟨digits, positive, bound⟩, rfl⟩
  · rintro ⟨head, spells, rfl⟩
    have number := Varint.read_eq_ok_iff.mpr ⟨head, spells.digits, Eq.refl (head ++ rest)⟩
    have known := ofNat_eq_ok_iff.mpr ⟨rfl, spells.tag_pos, spells.tag_lt⟩
    simp only [read, number, known, Except.ok_bind]
    rfl

theorem read_of_code {head : Bytes} {tag code : Nat} (spells : Varint.Spells head (tag * 8 + code))
    (positive : 0 < tag) (bound : tag < 1 <<< 29) (small : code < 8) (rest : Bytes) :
    read (head ++ rest) = match WireType.ofCode? code with
      | some w => .ok (⟨tag, w⟩, rest)
      | none => (Fault.unknownWireType code).raise := by
  have number := Varint.read_eq_ok_iff.mpr ⟨head, spells, Eq.refl (head ++ rest)⟩
  have fits : ¬ 0x100000000 ≤ tag * 8 + code := by omega
  have low : (tag * 8 + code) % 8 = code := by omega
  have high : (tag * 8 + code) / 8 = tag := by omega
  have nonzero : tag ≠ 0 := by omega
  simp only [read, number, Except.ok_bind, ofNat, if_neg fits, low, high, if_neg nonzero]
  cases WireType.ofCode? code <;> rfl

theorem Spells.read {key : Key} {head : Bytes} (spells : Spells head key) (rest : Bytes) :
    Key.read (head ++ rest) = .ok (key, rest) :=
  read_eq_ok_iff.mpr ⟨head, spells, rfl⟩

theorem Spells.of_read {key : Key} {bs : Bytes} (whole : Key.read bs = .ok (key, [])) :
    Spells bs key := by
  obtain ⟨head, spells, rfl⟩ := read_eq_ok_iff.mp whole
  rwa [List.append_nil]

theorem Spells.ne_nil {key : Key} {bs : Bytes} (spells : Spells bs key) : bs ≠ [] :=
  Varint.Spells.ne_nil spells.digits

end Key

theorem take_eq_ok_iff {n : Nat} {bs body rest : Bytes} :
    take n bs = .ok (body, rest) ↔ body.length = n ∧ bs = body ++ rest := by
  constructor
  · intro taken
    rw [take] at taken
    split at taken
    · cases taken
    · rename_i enough
      cases taken
      exact ⟨List.length_take_of_le (Nat.le_of_not_lt enough), (List.take_append_drop n bs).symm⟩
  · rintro ⟨rfl, rfl⟩
    have enough : ¬ (body ++ rest).length < body.length := by simp
    rw [take, if_neg enough, List.take_left, List.drop_left]

def Delimits (bs body : Bytes) : Prop :=
  ∃ head, Varint.Spells head body.length ∧ bs = head ++ body

theorem readDelimited_eq_ok_iff {bs body rest : Bytes} :
    readDelimited bs = .ok (body, rest) ↔ ∃ front, Delimits front body ∧ bs = front ++ rest := by
  constructor
  · intro read
    obtain ⟨⟨n, later⟩, number, taken⟩ := Except.bind_eq_ok_iff.mp read
    obtain ⟨head, spells, rfl⟩ := Varint.read_eq_ok_iff.mp number
    obtain ⟨rfl, rfl⟩ := take_eq_ok_iff.mp taken
    exact ⟨head ++ body, ⟨head, spells, rfl⟩, (List.append_assoc ..).symm⟩
  · rintro ⟨_, ⟨head, spells, rfl⟩, rfl⟩
    have number := Varint.read_eq_ok_iff.mpr ⟨head, spells, List.append_assoc head body rest⟩
    simp only [readDelimited, number, Except.ok_bind]
    exact take_eq_ok_iff.mpr ⟨rfl, rfl⟩

theorem Delimits.unique {bs body body' : Bytes} (delimits : Delimits bs body)
    (delimits' : Delimits bs body') : body = body' := by
  have first := readDelimited_eq_ok_iff.mpr ⟨bs, delimits, (List.append_nil bs).symm⟩
  have second := readDelimited_eq_ok_iff.mpr ⟨bs, delimits', (List.append_nil bs).symm⟩
  exact (Prod.mk.inj (Except.ok.inj (first.symm.trans second))).1

inductive Group (isValue : Key → Bytes → Prop) (tag : Nat) : Bytes → Prop
  | close {last : Bytes} (keyed : Key.Spells last ⟨tag, .endGroup⟩) : Group isValue tag last
  | field {head value later : Bytes} {key : Key} (keyed : Key.Spells head key)
      (valued : isValue key value) (rest : Group isValue tag later) :
      Group isValue tag (head ++ (value ++ later))

/-- The bytes are a value of the form that the key says, with groups at most `budget` deep. -/
def IsValue : (budget : Nat) → Key → Bytes → Prop
  | 0, _, _ => False
  | budget + 1, key, bs =>
    match key.wireType with
    | .varint => ∃ n, Varint.Spells bs n
    | .sixtyFourBit => bs.length = 8
    | .lengthDelimited => ∃ body, Delimits bs body
    | .startGroup => Group (IsValue budget) key.tag bs
    | .endGroup => False
    | .thirtyTwoBit => bs.length = 4

theorem skipGroup_of_group {skip : Key → Bytes → Except DecodeError Bytes}
    {isValue : Key → Bytes → Prop} {tag : Nat} {bs : Bytes} (group : Group isValue tag bs)
    (opens : ∀ key value, isValue key value → key.wireType ≠ .endGroup)
    (skips : ∀ key value rest, isValue key value → skip key (value ++ rest) = .ok rest) (rest : Bytes)
    {fuel : Nat} (enough : bs.length ≤ fuel) : skipGroup skip tag fuel (bs ++ rest) = .ok rest := by
  induction group generalizing fuel with
  | close keyed =>
    have front := List.length_pos_iff.mpr keyed.ne_nil
    obtain ⟨fuel, rfl⟩ : ∃ n, fuel = n + 1 := ⟨fuel - 1, by omega⟩
    simp only [skipGroup, keyed.read, Except.ok_bind, if_true]
    rfl
  | @field head value later key keyed valued _ ih =>
    have front := List.length_pos_iff.mpr keyed.ne_nil
    simp only [List.length_append] at enough
    obtain ⟨fuel, rfl⟩ : ∃ n, fuel = n + 1 := ⟨fuel - 1, by omega⟩
    rw [skipGroup, List.append_assoc, List.append_assoc, keyed.read]
    simp only [Except.ok_bind, if_neg (opens key value valued), skips key value _ valued]
    exact ih (by omega)

theorem group_of_skipGroup {skip : Key → Bytes → Except DecodeError Bytes}
    {isValue : Key → Bytes → Prop} {tag fuel : Nat} {bs rest : Bytes}
    (values : ∀ key bs rest, skip key bs = .ok rest → ∃ value, isValue key value ∧ bs = value ++ rest)
    (skipped : skipGroup skip tag fuel bs = .ok rest) :
    ∃ content, Group isValue tag content ∧ bs = content ++ rest := by
  induction fuel generalizing bs with
  | zero => cases skipped
  | succ fuel ih =>
    obtain ⟨⟨key, later⟩, read, passed⟩ := Except.bind_eq_ok_iff.mp skipped
    obtain ⟨head, keyed, rfl⟩ := Key.read_eq_ok_iff.mp read
    dsimp only at passed
    split at passed
    · rename_i closing
      split at passed
      · rename_i same
        cases passed
        refine ⟨head, .close ?_, rfl⟩
        rw [← same, ← closing]
        exact keyed
      · cases passed
    · obtain ⟨left, field, continued⟩ := Except.bind_eq_ok_iff.mp passed
      obtain ⟨content, group, rfl⟩ := ih continued
      obtain ⟨value, valued, rfl⟩ := values key later _ field
      exact ⟨head ++ (value ++ content), .field keyed valued group, by simp only [List.append_assoc]⟩

theorem IsValue.opens {budget : Nat} {key : Key} {value : Bytes} (valued : IsValue budget key value) :
    key.wireType ≠ .endGroup := by
  intro closing
  cases budget with
  | zero => exact valued
  | succ budget =>
    rw [IsValue, closing] at valued
    exact valued

theorem skipField_of_isValue {budget : Nat} {key : Key} {value : Bytes}
    (valued : IsValue budget key value) (rest : Bytes) :
    skipField budget key (value ++ rest) = .ok rest := by
  induction budget generalizing key value rest with
  | zero => cases valued
  | succ budget ih =>
    obtain ⟨tag, w⟩ := key
    cases w with
    | varint =>
      obtain ⟨n, spells⟩ := valued
      have read := Varint.read_eq_ok_iff.mpr ⟨value, spells, Eq.refl (value ++ rest)⟩
      simp only [skipField, read, Except.ok_bind]
      rfl
    | sixtyFourBit | thirtyTwoBit =>
      have taken := take_eq_ok_iff.mpr ⟨valued, Eq.refl (value ++ rest)⟩
      simp only [skipField, taken, Except.ok_bind]
      rfl
    | lengthDelimited =>
      obtain ⟨body, delimits⟩ := valued
      have read := readDelimited_eq_ok_iff.mpr ⟨value, delimits, Eq.refl (value ++ rest)⟩
      simp only [skipField, read, Except.ok_bind]
      rfl
    | startGroup =>
      refine skipGroup_of_group valued (fun key value => IsValue.opens) (fun key value rest => ?_)
        rest ?_
      · exact fun valued => ih valued rest
      · rw [List.length_append]
        omega
    | endGroup => cases valued

theorem isValue_of_skipField {budget : Nat} {key : Key} {bs rest : Bytes}
    (skipped : skipField budget key bs = .ok rest) :
    ∃ value, IsValue budget key value ∧ bs = value ++ rest := by
  induction budget generalizing key bs rest with
  | zero => cases skipped
  | succ budget ih =>
    obtain ⟨tag, w⟩ := key
    cases w with
    | varint =>
      obtain ⟨⟨n, later⟩, read, same⟩ := Except.bind_eq_ok_iff.mp skipped
      cases same
      obtain ⟨value, spells, split⟩ := Varint.read_eq_ok_iff.mp read
      exact ⟨value, ⟨n, spells⟩, split⟩
    | sixtyFourBit | thirtyTwoBit =>
      obtain ⟨⟨value, later⟩, taken, same⟩ := Except.bind_eq_ok_iff.mp skipped
      cases same
      exact ⟨value, take_eq_ok_iff.mp taken⟩
    | lengthDelimited =>
      obtain ⟨⟨body, later⟩, read, same⟩ := Except.bind_eq_ok_iff.mp skipped
      cases same
      obtain ⟨value, delimits, split⟩ := readDelimited_eq_ok_iff.mp read
      exact ⟨value, ⟨body, delimits⟩, split⟩
    | startGroup => exact group_of_skipGroup (fun key bs rest skipped => ih skipped) skipped
    | endGroup => cases skipped

theorem IsValue.of_skipField {budget : Nat} {key : Key} {bs : Bytes}
    (whole : skipField budget key bs = .ok []) : IsValue budget key bs := by
  obtain ⟨value, valued, rfl⟩ := isValue_of_skipField whole
  rwa [List.append_nil]

theorem Group.imp {isValue isValue' : Key → Bytes → Prop} {tag : Nat} {bs : Bytes}
    (every : ∀ key value, isValue key value → isValue' key value) (group : Group isValue tag bs) :
    Group isValue' tag bs := by
  induction group with
  | close keyed => exact .close keyed
  | field keyed valued _ ih => exact .field keyed (every _ _ valued) ih

theorem IsValue.succ {budget : Nat} {key : Key} {value : Bytes} (valued : IsValue budget key value) :
    IsValue (budget + 1) key value := by
  induction budget generalizing key value with
  | zero => cases valued
  | succ budget ih =>
    obtain ⟨tag, w⟩ := key
    cases w with
    | varint | sixtyFourBit | lengthDelimited | endGroup | thirtyTwoBit => exact valued
    | startGroup => exact Group.imp (fun _ _ valued => ih valued) valued

theorem IsValue.mono {budget more : Nat} {key : Key} {value : Bytes} (enough : budget ≤ more)
    (valued : IsValue budget key value) : IsValue more key value := by
  induction enough with
  | refl => exact valued
  | step _ ih => exact ih.succ

/-- Only groups nest. -/
theorem IsValue.of_ne_group {budget : Nat} {key : Key} {value : Bytes}
    (valued : IsValue budget key value) (single : key.wireType ≠ .startGroup) (more : Nat) :
    IsValue (more + 1) key value := by
  cases budget with
  | zero => cases valued
  | succ budget =>
    obtain ⟨tag, w⟩ := key
    cases w with
    | varint | sixtyFourBit | lengthDelimited | endGroup | thirtyTwoBit => exact valued
    | startGroup => exact absurd rfl single

/-- No bytes begin with two fields. -/
theorem field_unique {budget budget' : Nat} {key key' : Key} {head head' value value' later later' : Bytes}
    (keyed : Key.Spells head key) (valued : IsValue budget key value) (keyed' : Key.Spells head' key')
    (valued' : IsValue budget' key' value')
    (same : head ++ (value ++ later) = head' ++ (value' ++ later')) :
    key = key' ∧ value = value' ∧ later = later' := by
  have first := keyed.read (value ++ later)
  rw [same, keyed'.read] at first
  obtain ⟨rfl, same⟩ := Prod.mk.inj (Except.ok.inj first)
  have second := skipField_of_isValue (valued.mono (Nat.le_max_left budget budget')) later
  rw [← same, skipField_of_isValue (valued'.mono (Nat.le_max_right budget budget'))] at second
  obtain rfl := Except.ok.inj second
  exact ⟨rfl, (List.append_cancel_right same).symm, rfl⟩

inductive Tagged : Bytes → List Nat → Prop
  | nil : Tagged [] []
  | cons {bs value later : Bytes} {key : Key} {budget : Nat} {tags : List Nat}
      (keyed : Key.read bs = .ok (key, value)) (skipped : skipField budget key value = .ok later)
      (rest : Tagged later tags) : Tagged bs (key.tag :: tags)

end WalletBridge.Wire
