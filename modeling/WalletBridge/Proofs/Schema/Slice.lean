import WalletBridge.Proofs.Schema.Scalar
import WalletBridge.Schema.Codec

namespace WalletBridge

open Wire

namespace Fields

/-- From here on merging ends with `out`, whatever fuel it has beyond the number of bytes. -/
def Merges {α : Type} (merge : Key → α → Bytes → Except DecodeError (α × Bytes)) (limit : Nat)
    (a : α) (bs : Bytes) (out : α × Bytes) : Prop :=
  ∀ fuel, bs.length ≤ fuel → mergeUntil merge limit fuel a bs = .ok out

inductive Parses {α : Type} (merge : Key → α → Bytes → Except DecodeError (α × Bytes)) :
    α → Bytes → α → Prop
  | done (a : α) : Parses merge a [] a
  | field {a next b : α} {head value later : Bytes} {key : Key} (keyed : Key.Spells head key)
      (merged : merge key a value = .ok (next, [])) (rest : Parses merge next later b) :
      Parses merge a (head ++ (value ++ later)) b

section

variable {α : Type} {merge : Key → α → Bytes → Except DecodeError (α × Bytes)} {a b : α}
  {body rest : Bytes}

theorem Merges.done {limit : Nat} {bs : Bytes} (reached : bs.length ≤ limit) :
    Merges merge limit a bs (a, bs) := by
  intro fuel _
  cases fuel with
  | zero => rfl
  | succ fuel => rw [mergeUntil, if_pos reached]

/-- Fields in front are merged first, whatever becomes of the bytes behind them. -/
theorem Parses.mergeUntil_append (each : ∀ key a, Local (merge key a)) {front later : Bytes} {limit : Nat}
    {out : Except DecodeError (α × Bytes)} (parses : Parses merge a front b)
    (ahead : limit ≤ later.length)
    (continues : ∀ fuel, later.length ≤ fuel → mergeUntil merge limit fuel b later = out) {fuel : Nat}
    (enough : (front ++ later).length ≤ fuel) :
    mergeUntil merge limit fuel a (front ++ later) = out := by
  induction parses generalizing fuel with
  | done a => exact continues fuel enough
  | @field a next b head value more key keyed merged _ ih =>
    have first := List.length_pos_iff.mpr keyed.ne_nil
    simp only [List.length_append] at enough
    obtain ⟨fuel, rfl⟩ : ∃ n, fuel = n + 1 := ⟨fuel - 1, by omega⟩
    have unfinished : ¬ (head ++ (value ++ more) ++ later).length ≤ limit := by
      simp only [List.length_append]
      omega
    have extended := (each key a).extend merged (more ++ later)
    rw [mergeUntil, if_neg unfinished, List.append_assoc, List.append_assoc, keyed.read]
    simp only [Except.ok_bind, extended]
    exact ih continues (by simp only [List.length_append]; omega)

theorem Parses.merges (each : ∀ key a, Local (merge key a)) (parses : Parses merge a body b)
    (rest : Bytes) : Merges merge rest.length a (body ++ rest) (b, rest) := fun _ =>
  parses.mergeUntil_append each (Nat.le_refl _) (Merges.done (Nat.le_refl _))

theorem Parses.imp {merge' : Key → α → Bytes → Except DecodeError (α × Bytes)}
    (every : ∀ key a next bs, merge key a bs = .ok (next, []) → merge' key a bs = .ok (next, []))
    (parses : Parses merge a body b) : Parses merge' a body b := by
  induction parses with
  | done a => exact .done a
  | field keyed merged _ ih => exact .field keyed (every _ _ _ _ merged) ih

theorem parses_of_mergeUntil (each : ∀ key a, Local (merge key a)) {limit fuel : Nat} {bs : Bytes}
    (enough : bs.length ≤ fuel) (merged : mergeUntil merge limit fuel a bs = .ok (b, rest)) :
    rest.length ≤ limit ∧ ∃ body, bs = body ++ rest ∧ Parses merge a body b := by
  induction fuel generalizing a bs with
  | zero =>
    cases merged
    exact ⟨Nat.le_trans enough (Nat.zero_le _), [], rfl, .done _⟩
  | succ fuel ih =>
    rw [mergeUntil] at merged
    split at merged
    · rename_i reached
      cases merged
      exact ⟨reached, [], rfl, .done _⟩
    · obtain ⟨⟨key, later⟩, read, entered⟩ := Except.bind_eq_ok_iff.mp merged
      obtain ⟨⟨next, left⟩, field, continued⟩ := Except.bind_eq_ok_iff.mp entered
      obtain ⟨head, keyed, rfl⟩ := Key.read_eq_ok_iff.mp read
      obtain ⟨value, rfl, again⟩ := each key a _ next _ field
      have front := List.length_pos_iff.mpr keyed.ne_nil
      simp only [List.length_append] at enough
      obtain ⟨reached, body, rfl, parses⟩ := ih (by omega) continued
      -- Readers never look behind what they take, so the field is the same one by itself.
      have alone := again []
      rw [List.append_nil] at alone
      exact ⟨reached, head ++ (value ++ body), by simp only [List.append_assoc],
        .field keyed alone parses⟩

theorem mergeDelimited_eq_ok_iff (each : ∀ key a, Local (merge key a)) {bs : Bytes} :
    mergeDelimited merge a bs = .ok (b, rest) ↔
      ∃ front body, Delimits front body ∧ bs = front ++ rest ∧ Parses merge a body b := by
  constructor
  · intro merged
    obtain ⟨⟨n, inside⟩, number, entered⟩ := Except.bind_eq_ok_iff.mp merged
    obtain ⟨head, spells, rfl⟩ := Varint.read_eq_ok_iff.mp number
    dsimp only at entered
    split at entered
    · cases entered
    · rename_i enough
      obtain ⟨⟨next, left⟩, fields, ended⟩ := Except.bind_eq_ok_iff.mp entered
      dsimp only at ended
      split at ended
      · rename_i reached
        cases ended
        obtain ⟨_, body, rfl, parses⟩ := parses_of_mergeUntil each (Nat.le_refl _) fields
        have length : body.length = n := by
          simp only [List.length_append] at enough reached
          omega
        exact ⟨head ++ body, body, ⟨head, length ▸ spells, rfl⟩, (List.append_assoc ..).symm, parses⟩
      · cases ended
  · rintro ⟨_, body, ⟨head, spells, rfl⟩, rfl, parses⟩
    have number := Varint.read_eq_ok_iff.mpr ⟨head, spells, List.append_assoc head body rest⟩
    have enough : ¬ (body ++ rest).length < body.length := by simp
    have limit : (body ++ rest).length - body.length = rest.length := by simp
    have merged := parses.merges each rest _ (Nat.le_refl _)
    simp only [mergeDelimited, number, Except.ok_bind, if_neg enough, limit, merged, if_true]
    rfl

theorem local_mergeDelimited (each : ∀ key a, Local (merge key a)) (a : α) :
    Local (mergeDelimited merge a) := by
  intro bs b rest merged
  obtain ⟨front, body, delimits, rfl, parses⟩ := (mergeDelimited_eq_ok_iff each).mp merged
  exact ⟨front, rfl, fun other =>
    (mergeDelimited_eq_ok_iff each).mpr ⟨front, body, delimits, rfl, parses⟩⟩

end

theorem local_mergeNested {α : Type}
    {merge : Nat → Key → α → Bytes → Except DecodeError (α × Bytes)}
    (each : ∀ budget key a, Local (merge budget key a)) (w : WireType) (a : α) (budget : Nat) :
    Local fun bs => mergeNested merge w a bs budget := by
  cases budget with
  | zero => exact (Local.fail _).check w .lengthDelimited
  | succ budget => exact (local_mergeDelimited (each budget) a).check w .lengthDelimited

theorem local_mergeField (owner : String) (fs : Fields) (budget : Nat) (key : Key) (r : fs.Record) :
    Local (fs.mergeField owner budget key r) := by
  induction fs generalizing owner budget key with
  | nil => exact local_skipField budget key r
  | scalar info kind rest ih =>
    obtain ⟨v, r⟩ := r
    have decoded := (kind.local_decode key.wireType).locate ⟨owner, info.label⟩
    exact (decoded.map (·, r)).ite (key.tag = info.tag) ((ih owner budget key r).map (v, ·))
  | message info name body rest body_ih ih =>
    obtain ⟨m, r⟩ := r
    have nested := local_mergeNested (fun budget key => body_ih name.ownName budget key) key.wireType
      (m.getD body.zero) budget
    exact ((nested.locate ⟨owner, info.label⟩).map (some ·, r)).ite (key.tag = info.tag)
      ((ih owner budget key r).map (m, ·))
  | repeated info name body rest body_ih ih =>
    obtain ⟨ms, r⟩ := r
    have nested := local_mergeNested (fun budget key => body_ih name.ownName budget key) key.wireType
      body.zero budget
    exact ((nested.locate ⟨owner, info.label⟩).map (ms ++ [·], r)).ite (key.tag = info.tag)
      ((ih owner budget key r).map (ms, ·))

theorem mergeNested_eq_ok_iff {schema : Schema} {w : WireType} {budget : Nat}
    {m m' : schema.Record} {bs rest : Bytes} :
    mergeNested (schema.fields.mergeField schema.name.ownName) w m bs (budget + 1) = .ok (m', rest) ↔
      w = .lengthDelimited ∧ ∃ front body, Delimits front body ∧ bs = front ++ rest ∧
        Parses (schema.fields.mergeField schema.name.ownName budget) m body m' := by
  have each := local_mergeField schema.name.ownName schema.fields budget
  rw [← mergeDelimited_eq_ok_iff each]
  constructor
  · intro merged
    obtain ⟨_, checked, merged⟩ := Except.bind_eq_ok_iff.mp merged
    exact ⟨eq_of_checkWireType checked, merged⟩
  · rintro ⟨rfl, merged⟩
    exact merged

theorem mergeNested_writeDelimited (schema : Schema) {budget : Nat} {m m' : schema.Record} {body : Bytes}
    (bound : body.length < 1 <<< 64)
    (parses : Parses (schema.fields.mergeField schema.name.ownName budget) m body m') :
    mergeNested (schema.fields.mergeField schema.name.ownName) .lengthDelimited m
      (writeDelimited body) (budget + 1) = .ok (m', []) :=
  mergeNested_eq_ok_iff.mpr
    ⟨rfl, _, body, delimits_writeDelimited body bound, (List.append_nil _).symm, parses⟩

/-- A record's first field takes the value behind a key, or leaves it to the later ones. -/
theorem first_or_later {μ ρ σ : Type} {here : Prop} [Decidable here]
    {first : Except DecodeError (μ × Bytes)} {later : Except DecodeError (ρ × Bytes)} (put : μ → σ)
    (pass : ρ → σ) {r : σ} {rest : Bytes}
    (merged : (if here then do
        let (m, bs) ← first
        return (put m, bs)
      else do
        let (r, bs) ← later
        return (pass r, bs)) = .ok (r, rest)) :
    (here ∧ ∃ m, first = .ok (m, rest) ∧ put m = r) ∨
      ¬ here ∧ ∃ r', later = .ok (r', rest) ∧ pass r' = r := by
  split at merged
  · obtain ⟨⟨m, bs⟩, read, same⟩ := Except.bind_eq_ok_iff.mp merged
    cases same
    exact .inl ⟨‹here›, m, read, rfl⟩
  · obtain ⟨⟨r', bs⟩, read, same⟩ := Except.bind_eq_ok_iff.mp merged
    cases same
    exact .inr ⟨‹¬ here›, r', read, rfl⟩

theorem isValue_of_mergeNested (schema : Schema) {w : WireType} {budget tag : Nat}
    {m m' : schema.Record} {value : Bytes}
    (merged : mergeNested (schema.fields.mergeField schema.name.ownName) w m value budget =
      .ok (m', [])) : IsValue budget ⟨tag, w⟩ value := by
  cases budget with
  | zero =>
    obtain ⟨_, _, stopped⟩ := Except.bind_eq_ok_iff.mp merged
    cases stopped
  | succ budget =>
    obtain ⟨rfl, front, body, delimits, rfl, _⟩ := mergeNested_eq_ok_iff.mp merged
    rw [List.append_nil]
    exact ⟨body, delimits⟩

/-- Known or not, what a field takes has the form that its key says. -/
theorem isValue_of_mergeField {owner : String} {fs : Fields} {budget : Nat} {key : Key}
    {r r' : fs.Record} {value : Bytes}
    (merged : fs.mergeField owner budget key r value = .ok (r', [])) :
    ∃ more, IsValue more key value := by
  induction fs with
  | nil =>
    obtain ⟨later, skipped, same⟩ := Except.bind_eq_ok_iff.mp merged
    cases same
    exact ⟨budget, .of_skipField skipped⟩
  | scalar info kind fields ih =>
    obtain ⟨v, r⟩ := r
    rw [mergeField] at merged
    rcases first_or_later (·, r) (v, ·) merged with ⟨_, v, decoded, _⟩ | ⟨_, _, passed, _⟩
    · exact ⟨1, Scalar.isValue_of_decode (locate_eq_ok_iff.mp decoded)⟩
    · exact ih passed
  | message info name body fields _ ih =>
    obtain ⟨m, r⟩ := r
    rw [mergeField] at merged
    rcases first_or_later (some ·, r) (m, ·) merged with ⟨_, m, nested, _⟩ | ⟨_, _, passed, _⟩
    · exact ⟨budget, isValue_of_mergeNested ⟨name, body⟩ (locate_eq_ok_iff.mp nested)⟩
    · exact ih passed
  | repeated info name body fields _ ih =>
    obtain ⟨ms, r⟩ := r
    rw [mergeField] at merged
    rcases first_or_later (ms ++ [·], r) (ms, ·) merged with ⟨_, m, nested, _⟩ | ⟨_, _, passed, _⟩
    · exact ⟨budget, isValue_of_mergeNested ⟨name, body⟩ (locate_eq_ok_iff.mp nested)⟩
    · exact ih passed

end Fields

namespace Schema

theorem parse_eq_ok_iff {s : Schema} {bs : Bytes} {r : s.Record} :
    s.parse bs = .ok r ↔
      Fields.Parses (s.fields.mergeField s.name.ownName recursionBudget) s.zero bs r := by
  have each := Fields.local_mergeField s.name.ownName s.fields recursionBudget
  constructor
  · intro parsed
    obtain ⟨⟨r, rest⟩, merged, same⟩ := Except.bind_eq_ok_iff.mp parsed
    cases same
    obtain ⟨reached, body, rfl, parses⟩ := Fields.parses_of_mergeUntil each (Nat.le_refl _) merged
    obtain rfl := List.length_eq_zero_iff.mp (Nat.le_zero.mp reached)
    rw [List.append_nil]
    exact parses
  · intro parses
    have merged := parses.merges each [] _ (Nat.le_refl _)
    rw [List.append_nil] at merged
    exact Except.bind_eq_ok_iff.mpr ⟨(r, []), merged, rfl⟩

theorem decode_eq_ok_iff {s : Schema} {bs : Bytes} {r : s.Record} :
    s.decode bs none = .ok r ↔ s.parse bs = .ok r := by
  rw [decode]
  cases s.parse bs <;> simp

theorem decode_iff_parses {s : Schema} {bs : Bytes} {r : s.Record} :
    s.decode bs none = .ok r ↔
      Fields.Parses (s.fields.mergeField s.name.ownName recursionBudget) s.zero bs r :=
  decode_eq_ok_iff.trans parse_eq_ok_iff

/-- The fields behind a length have one level of nesting less than those of a whole buffer. -/
theorem decodeDelimited_eq_ok_iff {s : Schema} {bs rest : Bytes} {r : s.Record} :
    s.decodeDelimited bs = .ok (r, rest) ↔
      ∃ front body, Delimits front body ∧ bs = front ++ rest ∧
        Fields.Parses (s.fields.mergeField s.name.ownName 99) s.zero body r := by
  have each := Fields.local_mergeField s.name.ownName s.fields 99
  have inside : s.parseDelimited bs =
      Fields.mergeDelimited (s.fields.mergeField s.name.ownName 99) s.zero bs := rfl
  rw [← Fields.mergeDelimited_eq_ok_iff each, ← inside, decodeDelimited]
  cases s.parseDelimited bs <;> simp

end Schema

end WalletBridge
