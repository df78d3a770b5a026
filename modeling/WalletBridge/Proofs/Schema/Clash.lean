import WalletBridge.Proofs.Schema.Delimited

namespace WalletBridge

open Wire

namespace Fields

def declared? : Fields → (tag : Nat) → Option (String × WireType)
  | .nil, _ => none
  | .scalar info kind rest, tag =>
    if tag = info.tag then some (info.label, kind.wireType) else rest.declared? tag
  | .message info _ _ rest, tag | .repeated info _ _ rest, tag =>
    if tag = info.tag then some (info.label, .lengthDelimited) else rest.declared? tag

theorem exists_declared {fs : Fields} {tag : Nat} (member : tag ∈ fs.tags) :
    ∃ label expected, fs.declared? tag = some (label, expected) := by
  induction fs with
  | nil => cases member
  | scalar info kind rest ih | message info name body rest _ ih | repeated info name body rest _ ih =>
    rw [declared?]
    split
    · exact ⟨_, _, rfl⟩
    · rename_i other
      exact ih (List.mem_of_ne_of_mem other member)

theorem tag_bounds {fs : Fields} (wf : fs.WellFormed) {tag : Nat} (member : tag ∈ fs.tags) :
    0 < tag ∧ tag < 1 <<< 29 := by
  induction fs with
  | nil => cases member
  | scalar info kind rest ih =>
    rcases List.mem_cons.mp member with rfl | member
    · exact ⟨wf.1.tag_pos, wf.1.tag_lt⟩
    · exact ih wf.2 member
  | message info name body rest _ ih | repeated info name body rest _ ih =>
    rcases List.mem_cons.mp member with rfl | member
    · exact ⟨wf.1.tag_pos, wf.1.tag_lt⟩
    · exact ih wf.2.2 member

end Fields

/-- What is reported when the key of a declared field has this code for its wire type. A code without a
meaning is noticed before the tag is looked at. -/
def foreignError (l : Location) (expected : WireType) (code : Nat) : DecodeError :=
  match WireType.ofCode? code with
  | some actual => ⟨.wrongWireType actual expected, [l]⟩
  | none => ⟨.unknownWireType code, []⟩

theorem Scalar.decode_foreign (s : Scalar) {w : WireType} (foreign : w ≠ s.wireType) (bs : Bytes) :
    s.decode w bs = (Fault.wrongWireType w s.wireType).raise := by
  have refused : checkWireType w s.wireType = (Fault.wrongWireType w s.wireType).raise :=
    if_neg foreign
  cases s with
  | string | bytes =>
    simp only [decode, readBytes, wireType] at refused ⊢
    rw [refused]
    rfl
  | bool | int32 | uint32 | int64 | keyType =>
    simp only [decode, readVarint, wireType] at refused ⊢
    rw [refused]
    rfl

namespace Fields

theorem mergeNested_foreign {α : Type}
    (merge : Nat → Key → α → Bytes → Except DecodeError (α × Bytes)) {w : WireType}
    (foreign : w ≠ .lengthDelimited) (a : α) (bs : Bytes) (budget : Nat) :
    mergeNested merge w a bs budget = (Fault.wrongWireType w .lengthDelimited).raise := by
  have refused : checkWireType w .lengthDelimited = (Fault.wrongWireType w .lengthDelimited).raise :=
    if_neg foreign
  cases budget <;> rw [mergeNested, refused] <;> rfl

theorem mergeField_foreign {owner : String} {fs : Fields} {budget : Nat} {key : Key} {label : String}
    {expected : WireType} (declared : fs.declared? key.tag = some (label, expected))
    (foreign : key.wireType ≠ expected) (r : fs.Record) (bs : Bytes) :
    fs.mergeField owner budget key r bs =
      .error ⟨.wrongWireType key.wireType expected, [⟨owner, label⟩]⟩ := by
  induction fs with
  | nil => cases declared
  | scalar info kind rest ih =>
    obtain ⟨v, r⟩ := r
    rw [declared?] at declared
    rw [mergeField]
    split at declared
    · rename_i here
      cases declared
      rw [if_pos here, kind.decode_foreign foreign]
      rfl
    · rename_i apart
      rw [if_neg apart, ih declared]
      rfl
  | message info name body rest _ ih | repeated info name body rest _ ih =>
    obtain ⟨m, r⟩ := r
    rw [declared?] at declared
    rw [mergeField]
    split at declared
    · rename_i here
      cases declared
      rw [if_pos here, mergeNested_foreign _ foreign]
      rfl
    · rename_i apart
      rw [if_neg apart, ih declared]
      rfl

theorem mergeNested_of_mergeField {owner : String} {fs : Fields} {budget : Nat} {key : Key}
    {inner : Schema} (declared : fs.nested? key.tag = some inner) {r r' : fs.Record} {bs rest : Bytes}
    (merged : fs.mergeField owner budget key r bs = .ok (r', rest)) :
    ∃ m m', mergeNested (inner.fields.mergeField inner.name.ownName) key.wireType m bs budget =
      .ok (m', rest) := by
  induction fs with
  | nil => cases declared
  | scalar info kind fields ih =>
    obtain ⟨v, r⟩ := r
    rw [mergeField] at merged
    rcases first_or_later (·, r) (v, ·) merged with ⟨here, _⟩ | ⟨apart, _, passed, _⟩
    · rw [nested?, if_pos here] at declared
      cases declared
    · rw [nested?, if_neg apart] at declared
      exact ih declared passed
  | message info name body fields _ ih =>
    obtain ⟨m, r⟩ := r
    rw [mergeField] at merged
    rcases first_or_later (some ·, r) (m, ·) merged with ⟨here, m', nested, _⟩ | ⟨apart, _, passed, _⟩
    · rw [nested?, if_pos here] at declared
      cases declared
      exact ⟨_, m', locate_eq_ok_iff.mp nested⟩
    · rw [nested?, if_neg apart] at declared
      exact ih declared passed
  | repeated info name body fields _ ih =>
    obtain ⟨ms, r⟩ := r
    rw [mergeField] at merged
    rcases first_or_later (ms ++ [·], r) (ms, ·) merged with ⟨here, m', nested, _⟩ | ⟨apart, _, passed, _⟩
    · rw [nested?, if_pos here] at declared
      cases declared
      exact ⟨_, m', locate_eq_ok_iff.mp nested⟩
    · rw [nested?, if_neg apart] at declared
      exact ih declared passed

/-- Bytes that start with fields are read by way of these, whatever schema made fields of them. -/
theorem Parses.of_append {owner owner' : String} {fs fs' : Fields} {budget budget' : Nat}
    {q q' : fs'.Record} {r r' : fs.Record} {front later : Bytes}
    (fields : Parses (fs'.mergeField owner' budget') q front q')
    (parses : Parses (fs.mergeField owner budget) r (front ++ later) r') :
    ∃ m, Parses (fs.mergeField owner budget) m later r' := by
  induction fields generalizing r with
  | done q => exact ⟨r, parses⟩
  | @field q next q' head value more key keyed merged _ ih =>
    obtain ⟨_, valued⟩ := isValue_of_mergeField merged
    generalize split : head ++ (value ++ more) ++ later = bs at parses
    simp only [List.append_assoc] at split
    -- Where a field ends does not hang on the schema, so both readings take the same first field.
    cases parses with
    | done => exact absurd (List.append_eq_nil_iff.mp split).1 keyed.ne_nil
    | field keyed' merged' rest =>
      obtain ⟨_, valued'⟩ := isValue_of_mergeField merged'
      obtain ⟨_, _, rfl⟩ := field_unique keyed valued keyed' valued' split
      exact ih rest

section

variable {owner : String} {fs : Fields} {budget tag code : Nat} {label : String} {expected : WireType}
  {head : Bytes}

theorem mergeUntil_foreign (wf : fs.WellFormed) (member : tag ∈ fs.tags)
    (declared : fs.declared? tag = some (label, expected)) (small : code < 8)
    (foreign : code ≠ expected.code) (spells : Varint.Spells head (tag * 8 + code)) (r : fs.Record)
    (rest : Bytes) {fuel : Nat} (enough : (head ++ rest).length ≤ fuel) :
    mergeUntil (fs.mergeField owner budget) 0 fuel r (head ++ rest) =
      .error (foreignError ⟨owner, label⟩ expected code) := by
  obtain ⟨positive, bound⟩ := tag_bounds wf member
  have front := List.length_pos_iff.mpr spells.ne_nil
  rw [List.length_append] at enough
  obtain ⟨fuel, rfl⟩ : ∃ n, fuel = n + 1 := ⟨fuel - 1, by omega⟩
  have unfinished : ¬ (head ++ rest).length ≤ 0 := by
    rw [List.length_append]
    omega
  rw [mergeUntil, if_neg unfinished, Key.read_of_code spells positive bound small, foreignError]
  cases known : WireType.ofCode? code with
  | none => rfl
  | some actual =>
    have other : actual ≠ expected := fun same => foreign (same ▸ (Key.code_of_ofCode? known).symm)
    have stopped : fs.mergeField owner budget ⟨tag, actual⟩ r rest = _ :=
      mergeField_foreign declared other r rest
    simp only [Except.ok_bind, stopped]
    rfl

theorem not_parses_of_foreign (declared : fs.declared? tag = some (label, expected)) (small : code < 8)
    (foreign : code ≠ expected.code) (spells : Varint.Spells head (tag * 8 + code)) {rest : Bytes}
    {r r' : fs.Record} : ¬ Parses (fs.mergeField owner budget) r (head ++ rest) r' := by
  intro parses
  generalize split : head ++ rest = bs at parses
  cases parses with
  | done => exact spells.ne_nil (List.append_eq_nil_iff.mp split).1
  | @field _ next _ head' value' later' key keyed merged _ =>
    have first := Varint.read_eq_ok_iff.mpr ⟨head, spells, Eq.refl (head ++ rest)⟩
    have again := Varint.read_eq_ok_iff.mpr ⟨head', keyed.digits, split⟩
    have number := (Prod.mk.inj (Except.ok.inj (first.symm.trans again))).1
    have meaning : key.wireType.code < 8 := by cases key.wireType <;> decide
    have same : tag = key.tag := by omega
    have other : key.wireType ≠ expected := by
      intro expects
      rw [expects] at number
      omega
    rw [mergeField_foreign (same ▸ declared) other] at merged
    cases merged

end

end Fields

namespace Schema

/-- Behind bytes that are read as a message, in the message itself or in one inside, a declared tag
stands with another wire type. Whatever follows. -/
inductive Clashes : Schema → Bytes → Prop
  | here {s : Schema} {front head rest : Bytes} {r : s.Record} {tag code : Nat} {label : String}
      {expected : WireType} (read : s.decode front none = .ok r)
      (declared : s.fields.declared? tag = some (label, expected)) (small : code < 8)
      (foreign : code ≠ expected.code) (spells : Varint.Spells head (tag * 8 + code)) :
      Clashes s (front ++ (head ++ rest))
  | inside {s inner : Schema} {front head value content rest : Bytes} {r : s.Record} {tag : Nat}
      (read : s.decode front none = .ok r) (declared : s.fields.nested? tag = some inner)
      (keyed : Key.Spells head ⟨tag, .lengthDelimited⟩) (delimits : Delimits value content)
      (deeper : Clashes inner content) : Clashes s (front ++ (head ++ (value ++ rest)))

theorem Clashes.not_parses {s : Schema} {bs : Bytes} (clash : s.Clashes bs) {budget : Nat}
    {r r' : s.Record} : ¬ Fields.Parses (s.fields.mergeField s.name.ownName budget) r bs r' := by
  induction clash generalizing budget with
  | here read declared small foreign spells =>
    intro parses
    obtain ⟨m, parses⟩ := (decode_iff_parses.mp read).of_append parses
    exact Fields.not_parses_of_foreign declared small foreign spells parses
  | @inside s inner front head value content rest _ tag read declared keyed delimits _ ih =>
    intro parses
    obtain ⟨m, parses⟩ := (decode_iff_parses.mp read).of_append parses
    generalize split : head ++ (value ++ rest) = bs at parses
    cases parses with
    | done => exact keyed.ne_nil (List.append_eq_nil_iff.mp split).1
    | field keyed' merged _ =>
      have valued : IsValue 1 ⟨tag, .lengthDelimited⟩ value := ⟨content, delimits⟩
      obtain ⟨_, valued'⟩ := Fields.isValue_of_mergeField merged
      obtain ⟨rfl, rfl, _⟩ := field_unique keyed valued keyed' valued' split
      obtain ⟨_, _, nested⟩ := Fields.mergeNested_of_mergeField declared merged
      cases budget with
      | zero => cases nested
      | succ budget =>
        obtain ⟨_, taken, body, delimits', whole, parses⟩ := Fields.mergeNested_eq_ok_iff.mp nested
        rw [List.append_nil] at whole
        subst whole
        exact ih (delimits.unique delimits' ▸ parses)

/-- A declared tag with a wire type other than the declared one makes reading fail, behind whatever bytes
that are a message and in front of whatever bytes. Of the message's own fields the error names the
field and both types, or the type that does not exist. Inside of messages that lie in the message it is
the same, at any depth. -/
theorem decode_clash {s : Schema} (known : s ∈ Catalog.all) :
    (∀ tag ∈ s.fields.tags, ∃ label expected, s.fields.declared? tag = some (label, expected) ∧
      ∀ front r, s.decode front none = .ok r → ∀ code < 8, code ≠ expected.code →
        ∀ head, Varint.Spells head (tag * 8 + code) → ∀ rest,
          s.decode (front ++ (head ++ rest)) none =
            .error (.decode (foreignError ⟨s.name.ownName, label⟩ expected code))) ∧
    ∀ bs, s.Clashes bs → ∃ e, s.decode bs none = .error (.decode e) := by
  constructor
  · intro tag member
    obtain ⟨label, expected, declared⟩ := Fields.exists_declared member
    refine ⟨label, expected, declared, fun front r read code small foreign head spells rest => ?_⟩
    have wf := (Catalog.wellFormed known).fields
    have each := Fields.local_mergeField s.name.ownName s.fields recursionBudget
    have stopped := (decode_iff_parses.mp read).mergeUntil_append each (Nat.zero_le _)
      (fun _ => Fields.mergeUntil_foreign wf member declared small foreign spells r rest)
      (Nat.le_refl _)
    have failed : s.parse (front ++ (head ++ rest)) =
        .error (foreignError ⟨s.name.ownName, label⟩ expected code) := by
      rw [parse]
      simp only [stopped, Except.error_bind]
    rw [decode, failed]
    rfl
  · intro bs clash
    cases parsed : s.parse bs with
    | error e => exact ⟨e, by rw [decode, parsed]; rfl⟩
    | ok r => exact absurd (parse_eq_ok_iff.mp parsed) clash.not_parses

/-- The outputs come as a number, and in an output the hash comes under a code without a meaning. -/
theorem decode_clash_unspents :
    Message.schemaOf BtcForkTxInput ∈ Catalog.all ∧
    (Message.schemaOf BtcForkTxInput).decode [0x10, 0x07, 0x18, 0x01, 0xff] none =
      .error (.decode ⟨.wrongWireType .varint .lengthDelimited, [⟨"BtcForkTxInput", "unspents"⟩]⟩) ∧
    (Message.schemaOf BtcForkTxInput).Clashes [0x10, 0x07, 0x1a, 0x04, 0x10, 0x01, 0x0f, 0x00, 0x1a] ∧
    ∃ e, (Message.schemaOf BtcForkTxInput).decode
      [0x10, 0x07, 0x1a, 0x04, 0x10, 0x01, 0x0f, 0x00, 0x1a] none = .error (.decode e) := by
  have known : Message.schemaOf BtcForkTxInput ∈ Catalog.all := by decide +kernel
  have amount : (Message.schemaOf BtcForkTxInput).decode [0x10, 0x07] none =
      .ok (Message.toRecord { amount := 7 : BtcForkTxInput }) := by rfl
  have vout : (Message.schemaOf Utxo).decode [0x10, 0x01] none =
      .ok (Message.toRecord { vout := 1 : Utxo }) := by rfl
  have hash : Varint.Spells [0x0f] (1 * 8 + 7) := .of_read rfl
  have outputs : Key.Spells [0x1a] ⟨3, .lengthDelimited⟩ := .of_read rfl
  have output : Delimits [0x04, 0x10, 0x01, 0x0f, 0x00] [0x10, 0x01, 0x0f, 0x00] :=
    ⟨[0x04], .of_read rfl, rfl⟩
  have inner : (Message.schemaOf Utxo).Clashes ([0x10, 0x01] ++ ([0x0f] ++ [0x00])) :=
    .here vout rfl (by decide) (by decide) hash
  have outer : (Message.schemaOf BtcForkTxInput).Clashes
      ([0x10, 0x07] ++ ([0x1a] ++ ([0x04, 0x10, 0x01, 0x0f, 0x00] ++ [0x1a]))) :=
    .inside amount rfl outputs output inner
  obtain ⟨foreign, deeper⟩ := decode_clash known
  obtain ⟨label, expected, declared, fails⟩ := foreign 3 (by decide)
  cases declared
  exact ⟨known, fails [0x10, 0x07] _ amount 0 (by decide) (by decide) [0x18] (.of_read rfl) [0x01, 0xff],
    outer, deeper _ outer⟩

end Schema

end WalletBridge
