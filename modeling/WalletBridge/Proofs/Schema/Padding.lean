import WalletBridge.Proofs.Schema.Encoding
import WalletBridge.Proofs.Schema.Slice
import WalletBridge.Proofs.Schema.WellFormed

namespace WalletBridge

open Wire

namespace Fields

/-- The bytes are a message as it is written, except that undeclared fields may stand anywhere in front of,
between and behind its fields, and likewise in the messages inside. `declared` are the tags of the whole
message, of which `fs` are the fields that are yet to come. -/
inductive Padded : (budget : Nat) → (declared : List Nat) → (fs : Fields) → fs.Record → Bytes → Prop
  | done {budget : Nat} {declared : List Nat} : Padded budget declared .nil () []
  | unknown {budget : Nat} {declared : List Nat} {fs : Fields} {r : fs.Record} {key : Key}
      {head value bs : Bytes} (keyed : Key.Spells head key) (undeclared : key.tag ∉ declared)
      (valued : IsValue budget key value) (rest : Padded budget declared fs r bs) :
      Padded budget declared fs r (head ++ (value ++ bs))
  | scalar {budget : Nat} {declared : List Nat} {info : FieldInfo} {kind : Scalar} {fs : Fields}
      {r : fs.Record} {bs : Bytes} (v : kind.Value) (rest : Padded budget declared fs r bs) :
      Padded budget declared (.scalar info kind fs) ((v, r) : kind.Value × fs.Record)
        (kind.encode info.tag v ++ bs)
  | absent {budget : Nat} {declared : List Nat} {info : FieldInfo} {name : MessageName}
      {body fs : Fields} {r : fs.Record} {bs : Bytes} (rest : Padded budget declared fs r bs) :
      Padded budget declared (.message info name body fs)
        ((none, r) : Option body.Record × fs.Record) bs
  | message {budget : Nat} {declared : List Nat} {info : FieldInfo} {name : MessageName}
      {body fs : Fields} {m : body.Record} {r : fs.Record} {content bs : Bytes}
      (inside : Padded budget body.tags body m content)
      (rest : Padded (budget + 1) declared fs r bs) :
      Padded (budget + 1) declared (.message info name body fs)
        ((some m, r) : Option body.Record × fs.Record) (encodeNested info.tag content ++ bs)
  | exhausted {budget : Nat} {declared : List Nat} {info : FieldInfo} {name : MessageName}
      {body fs : Fields} {r : fs.Record} {bs : Bytes} (rest : Padded budget declared fs r bs) :
      Padded budget declared (.repeated info name body fs)
        (([], r) : List body.Record × fs.Record) bs
  | item {budget : Nat} {declared : List Nat} {info : FieldInfo} {name : MessageName}
      {body fs : Fields} {m : body.Record} {ms : List body.Record} {r : fs.Record} {content bs : Bytes}
      (inside : Padded budget body.tags body m content)
      (rest : Padded (budget + 1) declared (.repeated info name body fs)
        ((ms, r) : List body.Record × fs.Record) bs) :
      Padded (budget + 1) declared (.repeated info name body fs)
        ((m :: ms, r) : List body.Record × fs.Record) (encodeNested info.tag content ++ bs)

/-- On the images of records under `put`, `merge` does what the fields do. -/
def Follows {α : Type} (owner : String) (fs : Fields) (budget : Nat)
    (merge : Key → α → Bytes → Except DecodeError (α × Bytes)) (put : fs.Record → α) : Prop :=
  ∀ key r bs, key.tag ∈ fs.tags →
    merge key (put r) bs = (fs.mergeField owner budget key r bs).map fun (r, bs) => (put r, bs)

theorem Follows.self (owner : String) (fs : Fields) (budget : Nat) :
    Follows owner fs budget (fs.mergeField owner budget) id := by
  intro key r bs _
  change fs.mergeField owner budget key r bs = _
  cases fs.mergeField owner budget key r bs <;> rfl

section

variable {α : Type} {owner : String} {budget : Nat} {info : FieldInfo} {rest : Fields}
  {merge : Key → α → Bytes → Except DecodeError (α × Bytes)}

/-- What follows all fields follows the later ones too, with the first value fixed: no later field has
the first one's tag. -/
theorem Follows.later {fs : Fields} {put : fs.Record → α} {pair : rest.Record → fs.Record}
    (follows : Follows owner fs budget merge put) (first : fs.tags = info.tag :: rest.tags)
    (fresh : info.Fresh rest)
    (passes : ∀ key r bs, key.tag ≠ info.tag → fs.mergeField owner budget key (pair r) bs =
      (rest.mergeField owner budget key r bs).map fun (r, bs) => (pair r, bs)) :
    Follows owner rest budget merge fun r => put (pair r) := by
  intro key r bs member
  have among : key.tag ∈ fs.tags := first ▸ List.mem_cons_of_mem _ member
  have other : key.tag ≠ info.tag := fun same => fresh.tag_fresh (same ▸ member)
  rw [follows key (pair r) bs among, passes key r bs other]
  cases rest.mergeField owner budget key r bs <;> rfl

theorem Follows.scalar_later {kind : Scalar} {put : (Fields.scalar info kind rest).Record → α}
    (follows : Follows owner (.scalar info kind rest) budget merge put) (fresh : info.Fresh rest)
    (v : kind.Value) : Follows owner rest budget merge fun r => put (v, r) := by
  refine follows.later rfl fresh fun key r bs other => ?_
  rw [mergeField, if_neg other]
  cases rest.mergeField owner budget key r bs <;> rfl

theorem Follows.message_later {name : MessageName} {body : Fields}
    {put : (Fields.message info name body rest).Record → α}
    (follows : Follows owner (.message info name body rest) budget merge put)
    (fresh : info.Fresh rest) (m : Option body.Record) :
    Follows owner rest budget merge fun r => put (m, r) := by
  refine follows.later rfl fresh fun key r bs other => ?_
  rw [mergeField, if_neg other]
  cases rest.mergeField owner budget key r bs <;> rfl

theorem Follows.repeated_later {name : MessageName} {body : Fields}
    {put : (Fields.repeated info name body rest).Record → α}
    (follows : Follows owner (.repeated info name body rest) budget merge put)
    (fresh : info.Fresh rest) (ms : List body.Record) :
    Follows owner rest budget merge fun r => put (ms, r) := by
  refine follows.later rfl fresh fun key r bs other => ?_
  rw [mergeField, if_neg other]
  cases rest.mergeField owner budget key r bs <;> rfl

theorem Follows.scalar_first {kind : Scalar} {put : (Fields.scalar info kind rest).Record → α}
    (follows : Follows owner (.scalar info kind rest) budget merge put) (u v : kind.Value)
    (r : rest.Record) (bound : (kind.payload v).length < 1 <<< 64) :
    merge ⟨info.tag, kind.wireType⟩ (put (u, r)) (kind.payload v) = .ok (put (v, r), []) := by
  have decoded := kind.decode_payload v [] bound
  rw [List.append_nil] at decoded
  refine (follows ⟨info.tag, _⟩ (u, r) _ (List.mem_cons_self ..)).trans ?_
  rw [mergeField, if_pos rfl, decoded]
  rfl

theorem Follows.message_first {name : MessageName} {body : Fields}
    {put : (Fields.message info name body rest).Record → α}
    (follows : Follows owner (.message info name body rest) budget merge put) (m : body.Record)
    (r : rest.Record) (value : Bytes)
    (nested : mergeNested (body.mergeField name.ownName) .lengthDelimited body.zero value budget =
      .ok (m, [])) :
    merge ⟨info.tag, .lengthDelimited⟩ (put (none, r)) value = .ok (put (some m, r), []) := by
  refine (follows ⟨info.tag, _⟩ (none, r) _ (List.mem_cons_self ..)).trans ?_
  rw [mergeField, if_pos rfl, Option.getD_none, nested]
  rfl

theorem Follows.repeated_first {name : MessageName} {body : Fields}
    {put : (Fields.repeated info name body rest).Record → α}
    (follows : Follows owner (.repeated info name body rest) budget merge put)
    (ms : List body.Record) (m : body.Record) (r : rest.Record) (value : Bytes)
    (nested : mergeNested (body.mergeField name.ownName) .lengthDelimited body.zero value budget =
      .ok (m, [])) :
    merge ⟨info.tag, .lengthDelimited⟩ (put (ms, r)) value = .ok (put (ms ++ [m], r), []) := by
  refine (follows ⟨info.tag, _⟩ (ms, r) _ (List.mem_cons_self ..)).trans ?_
  rw [mergeField, if_pos rfl, nested]
  rfl

end

theorem length_encodeNested (tag : Nat) (body : Bytes) :
    body.length < (encodeNested tag body).length := by
  have key := List.length_pos_iff.mpr (Key.write_ne_nil ⟨tag, .lengthDelimited⟩)
  simp only [encodeNested, writeDelimited, List.length_append]
  omega

theorem mergeField_of_not_mem {owner : String} {fs : Fields} {budget : Nat} {key : Key}
    (undeclared : key.tag ∉ fs.tags) (r : fs.Record) (bs : Bytes) :
    fs.mergeField owner budget key r bs = (skipField budget key bs).map (r, ·) := by
  induction fs with
  | nil =>
    simp only [mergeField]
    cases skipField budget key bs <;> rfl
  | scalar info kind rest ih =>
    obtain ⟨v, r⟩ := r
    have other : key.tag ≠ info.tag := List.ne_of_not_mem_cons undeclared
    rw [mergeField, if_neg other, ih (List.not_mem_of_not_mem_cons undeclared)]
    cases skipField budget key bs <;> rfl
  | message info name body rest _ ih | repeated info name body rest _ ih =>
    obtain ⟨_, r⟩ := r
    have other : key.tag ≠ info.tag := List.ne_of_not_mem_cons undeclared
    rw [mergeField, if_neg other, ih (List.not_mem_of_not_mem_cons undeclared)]
    cases skipField budget key bs <;> rfl

/-- Items are appended behind those that are there already. -/
theorem Follows.repeated_item {α : Type} {owner : String} {budget : Nat} {info : FieldInfo}
    {name : MessageName} {body rest : Fields}
    {merge : Key → α → Bytes → Except DecodeError (α × Bytes)}
    {put : (Fields.repeated info name body rest).Record → α}
    (follows : Follows owner (.repeated info name body rest) budget merge put) (m : body.Record) :
    Follows owner (.repeated info name body rest) budget merge fun (ms, r) => put (m :: ms, r) := by
  intro key (ms, r) bs member
  refine (follows key (m :: ms, r) bs member).trans ?_
  rw [mergeField, mergeField]
  split
  · cases locate ⟨owner, info.label⟩
      (mergeNested (body.mergeField name.ownName) key.wireType body.zero bs budget) <;> rfl
  · cases rest.mergeField owner budget key r bs <;> rfl

theorem Padded.parses_of_follows {α : Type} {owner : String} {fs : Fields} {budget : Nat} {declared : List Nat}
    {merge : Key → α → Bytes → Except DecodeError (α × Bytes)} {put : fs.Record → α} {r : fs.Record}
    {bs : Bytes} (wf : fs.WellFormed) (follows : Follows owner fs budget merge put)
    (passes : ∀ key a bs, key.tag ∉ declared → merge key a bs = (skipField budget key bs).map (a, ·))
    (padded : Padded budget declared fs r bs) (bound : bs.length < 1 <<< 64) :
    Parses merge (put fs.zero) bs (put r) := by
  -- Each field finds the record as the earlier ones left it, with its own value still zero. What carries
  -- the induction is that `merge` follows the fields to come and passes over undeclared ones.
  induction padded generalizing α owner with
  | done => exact .done _
  | @unknown budget declared fs r key head value bs keyed undeclared valued _ ih =>
    simp only [List.length_append] at bound
    have skipped := skipField_of_isValue valued []
    rw [List.append_nil] at skipped
    have merged : merge key (put fs.zero) value = .ok (put fs.zero, []) := by
      rw [passes key _ _ undeclared, skipped]
      rfl
    exact .field keyed merged (ih wf follows passes (by omega))
  | @scalar budget declared info kind fs r bs v _ ih =>
    obtain ⟨fresh, wf⟩ := wf
    rw [List.length_append] at bound
    have later := ih wf (follows.scalar_later fresh v) passes (by omega)
    by_cases isZero : v = kind.zero
    · rw [isZero] at later ⊢
      rw [Scalar.encode_zero]
      exact later
    · rw [Scalar.encode_of_ne_zero _ isZero, List.length_append] at bound
      have first := follows.scalar_first kind.zero v fs.zero (by omega)
      rw [Scalar.encode_of_ne_zero _ isZero, List.append_assoc]
      exact .field (Key.spells_write _ fresh.tag_pos fresh.tag_lt) first later
  | @absent budget declared info name body fs r bs _ ih =>
    obtain ⟨fresh, _, wf⟩ := wf
    exact ih wf (follows.message_later fresh none) passes bound
  | @message budget declared info name body fs m r content bs _ _ body_ih ih =>
    obtain ⟨fresh, body_wf, wf⟩ := wf
    have size := length_encodeNested info.tag content
    rw [List.length_append] at bound
    have later := ih wf (follows.message_later fresh (some m)) passes (by omega)
    have inner := body_ih body_wf (Follows.self name.ownName body budget)
      (fun key m bs undeclared => mergeField_of_not_mem undeclared m bs) (by omega)
    have nested := mergeNested_writeDelimited ⟨name, body⟩ (by omega) inner
    have first := follows.message_first m fs.zero _ nested
    rw [encodeNested, List.append_assoc]
    exact .field (Key.spells_write _ fresh.tag_pos fresh.tag_lt) first later
  | @exhausted budget declared info name body fs r bs _ ih =>
    obtain ⟨fresh, _, wf⟩ := wf
    exact ih wf (follows.repeated_later fresh []) passes bound
  | @item budget declared info name body fs m ms r content bs _ _ body_ih ih =>
    have later := ih wf (follows.repeated_item m) passes (by
      rw [List.length_append] at bound
      omega)
    obtain ⟨fresh, body_wf, _⟩ := wf
    have size := length_encodeNested info.tag content
    rw [List.length_append] at bound
    have inner := body_ih body_wf (Follows.self name.ownName body budget)
      (fun key m bs undeclared => mergeField_of_not_mem undeclared m bs) (by omega)
    have nested := mergeNested_writeDelimited ⟨name, body⟩ (by omega) inner
    have first := follows.repeated_first [] m fs.zero _ nested
    rw [encodeNested, List.append_assoc]
    exact .field (Key.spells_write _ fresh.tag_pos fresh.tag_lt) first later

theorem Padded.parses (owner : String) {fs : Fields} {budget : Nat} {r : fs.Record} {bs : Bytes}
    (wf : fs.WellFormed) (padded : Padded budget fs.tags fs r bs) (bound : bs.length < 1 <<< 64) :
    Parses (fs.mergeField owner budget) fs.zero bs r :=
  padded.parses_of_follows wf (Follows.self owner fs budget)
    (fun _ r bs undeclared => mergeField_of_not_mem undeclared r bs) bound

/-- There may also be no such field. -/
theorem padded_encode (declared : List Nat) {fs : Fields} {budget : Nat} (deep : fs.depth ≤ budget)
    (r : fs.Record) : Padded budget declared fs r (fs.encode r) := by
  induction fs generalizing budget declared with
  | nil => exact .done
  | scalar info kind rest ih =>
    obtain ⟨v, r⟩ := r
    exact .scalar v (ih declared deep r)
  | message info name body rest body_ih ih =>
    obtain ⟨m, r⟩ := r
    rw [depth] at deep
    have later := ih declared (by omega : rest.depth ≤ budget) r
    cases m with
    | none => exact .absent later
    | some m =>
      obtain ⟨budget, rfl⟩ : ∃ n, budget = n + 1 := ⟨budget - 1, by omega⟩
      exact .message (body_ih body.tags (by omega) m) later
  | repeated info name body rest body_ih ih =>
    obtain ⟨ms, r⟩ := r
    rw [depth] at deep
    have later := ih declared (by omega : rest.depth ≤ budget) r
    obtain ⟨budget, rfl⟩ : ∃ n, budget = n + 1 := ⟨budget - 1, by omega⟩
    rw [encode]
    induction ms with
    | nil => exact .exhausted later
    | cons m ms ms_ih =>
      rw [List.flatMap_cons, List.append_assoc]
      exact .item (body_ih body.tags (by omega) m) ms_ih

end Fields

namespace Schema

/-- Fields that a message does not declare change nothing in what is read, wherever they stand, and
whatever they hold. -/
theorem decode_padded {s : Schema} (known : s ∈ Catalog.all) (r : s.Record) :
    s.fields.Padded recursionBudget s.fields.tags r (s.encode r) ∧
    ∀ bs, s.fields.Padded recursionBudget s.fields.tags r bs → bs.length < 1 <<< 64 →
      s.decode bs none = .ok r := by
  have wf := Catalog.wellFormed known
  refine ⟨Fields.padded_encode _ (Nat.le_of_lt wf.depth_lt) r, fun bs padded bound => ?_⟩
  have parses := padded.parses s.name.ownName wf.fields bound
  exact decode_iff_parses.mpr parses

/-- An undeclared number under an overlong key and an undeclared group stand in front of an output, and
in the output's own bytes stands a text that looks like the number of another one. -/
def paddedInput : Bytes :=
  [0xa0, 0x81, 0x00, 0x05] ++ [0xab, 0x01, 0x08, 0x01, 0xac, 0x01] ++
    [0x1a, 0x07, 0x9a, 0x06, 0x02, 0x10, 0x09, 0x10, 0x07]

theorem padded_paddedInput : BtcForkTxInput.fields.Padded recursionBudget BtcForkTxInput.fields.tags
    (Message.toRecord { unspents := [{ vout := 7 }] : BtcForkTxInput }) paddedInput := by
  have number : Key.Spells [0xa0, 0x81, 0x00] ⟨20, .varint⟩ := .of_read rfl
  have five : IsValue recursionBudget ⟨20, .varint⟩ [0x05] := .of_skipField rfl
  have opening : Key.Spells [0xab, 0x01] ⟨21, .startGroup⟩ := .of_read rfl
  have group : IsValue recursionBudget ⟨21, .startGroup⟩ [0x08, 0x01, 0xac, 0x01] := .of_skipField rfl
  have text : Key.Spells [0x9a, 0x06] ⟨99, .lengthDelimited⟩ := .of_read rfl
  have alike : IsValue 99 ⟨99, .lengthDelimited⟩ [0x02, 0x10, 0x09] := .of_skipField rfl
  have output : Utxo.fields.Padded 99 Utxo.fields.tags (Message.toRecord { vout := 7 : Utxo })
      [0x9a, 0x06, 0x02, 0x10, 0x09, 0x10, 0x07] :=
    .unknown text (by decide) alike (Fields.padded_encode _ (by decide) _)
  have later : Fields.Padded recursionBudget BtcForkTxInput.fields.tags _ _ [] :=
    Fields.padded_encode _ (by decide) (Message.toRecord ({} : BtcForkTxInput)).2.2
  exact .unknown number (by decide) five (.unknown opening (by decide) group
    (.scalar Scalar.string.zero (.scalar Scalar.int64.zero (.item output later))))

theorem decode_padded_paddedInput :
    Message.schemaOf BtcForkTxInput ∈ Catalog.all ∧
    (Message.schemaOf BtcForkTxInput).fields.Padded recursionBudget
      (Message.schemaOf BtcForkTxInput).fields.tags
      (Message.toRecord { unspents := [{ vout := 7 }] : BtcForkTxInput }) paddedInput ∧
    (Message.schemaOf BtcForkTxInput).decode paddedInput none =
      .ok (Message.toRecord { unspents := [{ vout := 7 }] : BtcForkTxInput }) := by
  have known : Message.schemaOf BtcForkTxInput ∈ Catalog.all := by decide +kernel
  exact ⟨known, padded_paddedInput,
    (decode_padded known _).2 paddedInput padded_paddedInput (by decide)⟩

end Schema

end WalletBridge
