import WalletBridge.Proofs.Schema.Slice
import WalletBridge.Proofs.Schema.WellFormed

namespace WalletBridge

open Wire

namespace Fields

def nested? : Fields → (tag : Nat) → Option Schema
  | .nil, _ => none
  | .scalar info _ rest, tag => if tag = info.tag then none else rest.nested? tag
  | .message info name body rest, tag | .repeated info name body rest, tag =>
    if tag = info.tag then some ⟨name, body⟩ else rest.nested? tag

inductive HasGroup : Fields → Bytes → Prop
  | here {fs : Fields} {head later : Bytes} {key : Key} (keyed : Key.Spells head key)
      (group : key.wireType = .startGroup) : HasGroup fs (head ++ later)
  | later {fs : Fields} {head value later : Bytes} {key : Key} {budget : Nat}
      (keyed : Key.Spells head key) (valued : IsValue budget key value) (group : HasGroup fs later) :
      HasGroup fs (head ++ (value ++ later))
  | inside {fs : Fields} {inner : Schema} {head value content later : Bytes} {key : Key}
      (keyed : Key.Spells head key) (message : key.wireType = .lengthDelimited)
      (declared : fs.nested? key.tag = some inner) (delimits : Delimits value content)
      (group : HasGroup inner.fields content) : HasGroup fs (head ++ (value ++ later))

theorem not_hasGroup_nil {fs : Fields} : ¬ HasGroup fs [] := by
  intro group
  generalize empty : ([] : Bytes) = bs at group
  cases group with
  | here keyed _ | later keyed _ _ | inside keyed _ _ _ _ =>
    exact keyed.ne_nil (List.append_eq_nil_iff.mp empty.symm).1

/-- A group lies in the first field, or in a later one. -/
theorem HasGroup.of_field {fs : Fields} {budget : Nat} {key : Key} {head value later : Bytes}
    (keyed : Key.Spells head key) (valued : IsValue budget key value)
    (group : HasGroup fs (head ++ (value ++ later))) :
    key.wireType = .startGroup ∨ HasGroup fs later ∨
      ∃ inner content, fs.nested? key.tag = some inner ∧ Delimits value content ∧
        HasGroup inner.fields content := by
  generalize split : head ++ (value ++ later) = bs at group
  cases group with
  | here keyed' group =>
    have first := keyed.read (value ++ later)
    rw [split, keyed'.read] at first
    obtain ⟨rfl, _⟩ := Prod.mk.inj (Except.ok.inj first)
    exact .inl group
  | later keyed' valued' group =>
    obtain ⟨rfl, rfl, rfl⟩ := field_unique keyed valued keyed' valued' split
    exact .inr (.inl group)
  | @inside _ inner _ value' content _ key' keyed' message declared delimits group =>
    have valued' : IsValue 1 key' value' := by
      obtain ⟨tag, w⟩ := key'
      cases message
      exact ⟨content, delimits⟩
    obtain ⟨rfl, rfl, rfl⟩ := field_unique keyed valued keyed' valued' split
    exact .inr (.inr ⟨inner, content, declared, delimits, group⟩)

theorem depth_lt_of_nested? {fs : Fields} {tag : Nat} {inner : Schema}
    (declared : fs.nested? tag = some inner) : inner.fields.depth < fs.depth := by
  induction fs with
  | nil => cases declared
  | scalar info kind rest ih =>
    rw [nested?] at declared
    split at declared
    · cases declared
    · exact ih declared
  | message info name body rest _ ih | repeated info name body rest _ ih =>
    rw [nested?] at declared
    rw [depth]
    split at declared
    · cases declared
      dsimp only
      omega
    · have later := ih declared
      omega

/-- A step that a record takes by its first field or by its later ones succeeds also when these succeed
otherwise. -/
theorem first_or_later_imp {μ ρ σ : Type} {here : Prop} [Decidable here]
    {first first' : Except DecodeError (μ × Bytes)} {later later' : Except DecodeError (ρ × Bytes)}
    (put : μ → σ) (pass : ρ → σ) {r : σ} {rest : Bytes}
    (one : here → ∀ m, first = .ok (m, rest) → first' = .ok (m, rest))
    (two : ¬ here → ∀ r, later = .ok (r, rest) → later' = .ok (r, rest))
    (merged : (if here then do
        let (m, bs) ← first
        return (put m, bs)
      else do
        let (r, bs) ← later
        return (pass r, bs)) = .ok (r, rest)) :
    (if here then do
        let (m, bs) ← first'
        return (put m, bs)
      else do
        let (r, bs) ← later'
        return (pass r, bs)) = .ok (r, rest) := by
  split at merged
  · rename_i holds
    obtain ⟨⟨m, bs⟩, read, same⟩ := Except.bind_eq_ok_iff.mp merged
    cases same
    rw [if_pos holds]
    exact Except.bind_eq_ok_iff.mpr ⟨_, one holds m read, rfl⟩
  · rename_i fails
    obtain ⟨⟨r', bs⟩, read, same⟩ := Except.bind_eq_ok_iff.mp merged
    cases same
    rw [if_neg fails]
    exact Except.bind_eq_ok_iff.mpr ⟨_, two fails r' read, rfl⟩

/-- The budget matters for fields that are passed over and for messages inside. -/
theorem mergeField_of_budgets {owner : String} {fs : Fields} {budget other : Nat} {key : Key}
    {r r' : fs.Record} {bs rest : Bytes}
    (passed : skipField budget key bs = .ok rest → skipField other key bs = .ok rest)
    (nested : ∀ inner m m', fs.nested? key.tag = some inner →
      mergeNested (inner.fields.mergeField inner.name.ownName) key.wireType m bs budget =
        .ok (m', rest) →
      mergeNested (inner.fields.mergeField inner.name.ownName) key.wireType m bs other =
        .ok (m', rest))
    (merged : fs.mergeField owner budget key r bs = .ok (r', rest)) :
    fs.mergeField owner other key r bs = .ok (r', rest) := by
  induction fs with
  | nil =>
    obtain ⟨later, skipped, same⟩ := Except.bind_eq_ok_iff.mp merged
    cases same
    exact Except.bind_eq_ok_iff.mpr ⟨_, passed skipped, rfl⟩
  | scalar info kind fields ih =>
    obtain ⟨v, r⟩ := r
    rw [mergeField] at merged ⊢
    refine first_or_later_imp (·, r) (v, ·) (fun _ m => id) (fun apart r' => ?_) merged
    rw [nested?, if_neg apart] at nested
    exact ih nested
  | message info name body fields _ ih =>
    obtain ⟨m, r⟩ := r
    rw [mergeField] at merged ⊢
    refine first_or_later_imp (some ·, r) (m, ·) (fun here m' => ?_) (fun apart r' => ?_) merged
    · rw [nested?, if_pos here] at nested
      simpa only [locate_eq_ok_iff] using nested ⟨name, body⟩ _ _ rfl
    · rw [nested?, if_neg apart] at nested
      exact ih nested
  | repeated info name body fields _ ih =>
    obtain ⟨ms, r⟩ := r
    rw [mergeField] at merged ⊢
    refine first_or_later_imp (ms ++ [·], r) (ms, ·) (fun here m' => ?_) (fun apart r' => ?_) merged
    · rw [nested?, if_pos here] at nested
      simpa only [locate_eq_ok_iff] using nested ⟨name, body⟩ _ _ rfl
    · rw [nested?, if_neg apart] at nested
      exact ih nested

/-- More budget does no harm. -/
theorem mergeField_succ {owner : String} {fs : Fields} {budget : Nat} {key : Key} {r r' : fs.Record}
    {bs rest : Bytes} (merged : fs.mergeField owner budget key r bs = .ok (r', rest)) :
    fs.mergeField owner (budget + 1) key r bs = .ok (r', rest) := by
  induction budget generalizing owner fs key bs rest with
  | zero =>
    refine mergeField_of_budgets (fun skipped => ?_) (fun inner m m' _ nested => ?_) merged
    · cases skipped
    · obtain ⟨_, _, stopped⟩ := Except.bind_eq_ok_iff.mp nested
      cases stopped
  | succ budget ih =>
    refine mergeField_of_budgets (fun skipped => ?_) (fun inner m m' _ nested => ?_) merged
    · obtain ⟨value, valued, rfl⟩ := isValue_of_skipField skipped
      exact skipField_of_isValue valued.succ rest
    · obtain ⟨delimited, front, body, delimits, split, parses⟩ := mergeNested_eq_ok_iff.mp nested
      exact mergeNested_eq_ok_iff.mpr ⟨delimited, front, body, delimits, split,
        parses.imp fun _ _ _ _ => ih⟩

/-- Without groups the declared messages alone use up the budget. -/
theorem parses_of_succ {owner : String} {fs : Fields} {budget : Nat} {r r' : fs.Record} {bs : Bytes}
    (deep : fs.depth < budget) (plain : ¬ HasGroup fs bs)
    (parses : Parses (fs.mergeField owner (budget + 1)) r bs r') :
    Parses (fs.mergeField owner budget) r bs r' := by
  -- Messages inside have less budget, so it is outermost; the fields of one message share theirs.
  induction budget generalizing owner fs bs with
  | zero => omega
  | succ budget ih =>
    induction parses with
    | done r => exact .done r
    | @field r next r' head value later key keyed merged _ continued =>
      have single : key.wireType ≠ .startGroup := fun group => plain (.here keyed group)
      obtain ⟨more, valued⟩ := isValue_of_mergeField merged
      refine .field keyed ?_ (continued fun group => plain (.later keyed valued group))
      refine mergeField_of_budgets (fun _ => ?_) (fun inner m m' declared nested => ?_) merged
      · have skipped := skipField_of_isValue (valued.of_ne_group single budget) []
        rwa [List.append_nil] at skipped
      · obtain ⟨delimited, front, body, delimits, split, parses⟩ := mergeNested_eq_ok_iff.mp nested
        rw [List.append_nil] at split
        subst split
        have shallow := depth_lt_of_nested? declared
        have inside : ¬ HasGroup inner.fields body := fun group =>
          plain (.inside keyed delimited declared delimits group)
        exact mergeNested_eq_ok_iff.mpr ⟨delimited, value, body, delimits, (List.append_nil _).symm,
          ih (by omega) inside parses⟩

end Fields

namespace Catalog

theorem depth_lt {s : Schema} (known : s ∈ all) : s.fields.depth < 99 := by
  have every : ∀ s ∈ all, s.fields.depth < 99 := by decide +kernel
  exact every s known

end Catalog

namespace Schema

/-- A delimited message is read just if a length stands in front and as many bytes behind it are a message
by themselves; what follows these is left. The other way round the bytes may hold no group, because
groups find one level of nesting less behind a length. -/
theorem delimited_exact {s : Schema} (known : s ∈ Catalog.all) :
    (∀ bs r rest, s.decodeDelimited bs = .ok (r, rest) →
      ∃ head body, Varint.Spells head body.length ∧ bs = head ++ body ++ rest ∧
        s.decode body none = .ok r) ∧
    ∀ head body rest r, Varint.Spells head body.length → ¬ s.fields.HasGroup body →
      s.decode body none = .ok r → s.decodeDelimited (head ++ body ++ rest) = .ok (r, rest) := by
  constructor
  · intro bs r rest decoded
    obtain ⟨_, body, ⟨head, spells, rfl⟩, rfl, parses⟩ := decodeDelimited_eq_ok_iff.mp decoded
    refine ⟨head, body, spells, rfl, decode_iff_parses.mpr ?_⟩
    exact parses.imp fun _ _ _ _ => Fields.mergeField_succ
  · intro head body rest r spells plain decoded
    have parses := decode_iff_parses.mp decoded
    exact decodeDelimited_eq_ok_iff.mpr ⟨_, body, ⟨head, spells, rfl⟩, rfl,
      Fields.parses_of_succ (Catalog.depth_lt known) plain parses⟩

def looseInput : Bytes :=
  [0xa0, 0x01, 0x05, 0x1a, 0x82, 0x00, 0x10, 0x07]

theorem not_hasGroup_looseInput : ¬ BtcForkTxInput.fields.HasGroup looseInput := by
  intro group
  have number : Key.Spells [0xa0, 0x01] ⟨20, .varint⟩ := .of_read rfl
  have output : Key.Spells [0x1a] ⟨3, .lengthDelimited⟩ := .of_read rfl
  have vout : Key.Spells [0x10] ⟨2, .varint⟩ := .of_read rfl
  have five : IsValue 1 ⟨20, .varint⟩ [0x05] := .of_skipField rfl
  have item : IsValue 1 ⟨3, .lengthDelimited⟩ [0x82, 0x00, 0x10, 0x07] := .of_skipField rfl
  have seven : IsValue 1 ⟨2, .varint⟩ [0x07] := .of_skipField rfl
  rcases group.of_field number five with group | group | ⟨_, _, declared, _⟩
  · cases group
  · rcases group.of_field output item with group | group | ⟨inner, content, declared, delimits, group⟩
    · cases group
    · exact Fields.not_hasGroup_nil group
    · cases declared
      have read := readDelimited_eq_ok_iff.mpr ⟨_, delimits, (List.append_nil _).symm⟩
      have same : ([0x10, 0x07], []) = (content, ([] : Bytes)) := Except.ok.inj read
      cases same
      rcases group.of_field vout seven with group | group | ⟨_, _, declared, _⟩
      · cases group
      · exact Fields.not_hasGroup_nil group
      · cases declared
  · cases declared

theorem delimited_exact_looseInput :
    Varint.Spells [0x88, 0x00] looseInput.length ∧
    ¬ (Message.schemaOf BtcForkTxInput).fields.HasGroup looseInput ∧
    (Message.schemaOf BtcForkTxInput).decodeDelimited ([0x88, 0x00] ++ looseInput ++ [0x1a, 0xff]) =
      .ok (Message.toRecord { unspents := [{ vout := 7 }] : BtcForkTxInput }, [0x1a, 0xff]) := by
  have known : Message.schemaOf BtcForkTxInput ∈ Catalog.all := by decide +kernel
  have length : Varint.Spells [0x88, 0x00] looseInput.length := .of_read rfl
  have decoded : (Message.schemaOf BtcForkTxInput).decode looseInput none =
      .ok (Message.toRecord { unspents := [{ vout := 7 }] : BtcForkTxInput }) := by rfl
  exact ⟨length, not_hasGroup_looseInput,
    (delimited_exact known).2 _ _ [0x1a, 0xff] _ length not_hasGroup_looseInput decoded⟩

end Schema

end WalletBridge
