import WalletBridge.Schema.Codec
import WalletBridge.Object.Render
import WalletBridge.Object.Verify
import WalletBridge.Proofs.Object.Reading
import WalletBridge.Proofs.Schema.WellFormed
import WalletBridge.Proofs.Text.Base64

namespace WalletBridge

open Json

namespace Json

theorem isNumber_ofInt (n : Int) : (ofInt n).IsNumber n :=
  ⟨.int n, rfl, rfl⟩

theorem octets_ofNat (b : Bytes) :
    List.Forall₂ (fun item a => item.IsNumber (a.toNat : Int)) (b.map fun a => ofNat a.toNat) b :=
  List.forall₂_map_left_iff.mpr (List.forall₂_same.mpr fun _ _ => isNumber_ofInt _)

end Json

namespace Scalar

theorem toJson_ne_null (o : RenderOptions) (s : Scalar) (v : s.Value) : s.toJson o v ≠ .null := by
  cases s with
  | string | bool | int32 | uint32 => exact Json.noConfusion
  | int64 => cases longs : o.longs <;> simp [toJson, longs, ofInt]
  | bytes => cases bytes : o.bytes <;> simp [toJson, bytes]
  | keyType =>
    cases enums : o.enums with
    | number => simp [toJson, enums, ofInt]
    | name => cases known : KeyType.ofNumber? v <;> simp [toJson, enums, known, ofInt]

def EnumKnown : (s : Scalar) → s.Value → Prop
  | .keyType, v => ∃ k : KeyType, k.number = v
  | _, _ => True

theorem enumKnown_zero (s : Scalar) : s.EnumKnown s.zero := by
  cases s with
  | keyType => exact ⟨.mnemonic, rfl⟩
  | _ => exact True.intro

theorem enumKnown_of_means {s : Scalar} {j : Json} {v : s.Value} (means : s.Means j v) :
    s.EnumKnown v := by
  cases s with
  | keyType =>
    cases means with
    | name k => exact ⟨k, rfl⟩
    | number k => exact ⟨k, rfl⟩
  | _ => exact True.intro

/-- In every form a value that has a name, or needs none, means itself. -/
theorem means_toJson (o : RenderOptions) {s : Scalar} {v : s.Value} (known : s.EnumKnown v) :
    s.Means (s.toJson o v) v := by
  cases s with
  | string | bool => rfl
  | int32 | uint32 => exact isNumber_ofInt _
  | int64 =>
    cases longs : o.longs with
    | number =>
      simp only [toJson, longs]
      exact .number (isNumber_ofInt _)
    | text =>
      simp only [toJson, longs]
      exact .text (spells_toString _)
  | bytes =>
    cases bytes : o.bytes with
    | octets =>
      simp only [toJson, bytes]
      exact .octets (octets_ofNat v)
    | base64 =>
      simp only [toJson, bytes]
      exact .text (Base64.spells_encode v)
  | keyType =>
    obtain ⟨k, rfl⟩ := known
    cases enums : o.enums with
    | number =>
      simp only [toJson, enums]
      exact .number k (isNumber_ofInt _)
    | name =>
      simp only [toJson, enums, KeyType.ofNumber?_number]
      exact .name k

/-- A number without a name means nothing, but it is read as it is. -/
theorem ofJson_toJson (path : String) (o : RenderOptions) (s : Scalar) (v : s.Value) :
    s.ofJson path (s.toJson o v) = .ok v := by
  by_cases known : s.EnumKnown v
  · exact ofJson_of_means path (means_toJson o known)
  · cases s with
    | keyType =>
      have unnamed : KeyType.ofNumber? v = none := by
        cases found : KeyType.ofNumber? v with
        | none => rfl
        | some k => exact absurd ⟨k, KeyType.number_of_ofNumber? found⟩ known
      have form : Scalar.keyType.toJson o v = ofInt (Int32.toInt v) := by
        cases enums : o.enums <;> simp only [toJson, enums, unnamed]
      have number : (ofInt (Int32.toInt v)).toUInt32.toInt32 = v :=
        (Word.toInt32_ofInt _).trans (Int32.ofInt_toInt v)
      rw [form]
      exact congrArg Except.ok number
    | _ => exact absurd True.intro known

theorem accepts_toJson (o : RenderOptions) (s : Scalar) (v : s.Value) :
    s.accepts (s.toJson o v) = true ↔ s.EnumKnown v := by
  constructor
  · intro accepted
    obtain ⟨w, means⟩ := means_of_accepts accepted
    have same : w = v := by
      have read := ofJson_of_means "" means
      rw [ofJson_toJson] at read
      exact (Except.ok.inj read).symm
    exact same ▸ enumKnown_of_means means
  · exact fun known => accepts_of_means (means_toJson o known)

end Scalar

namespace Json.Members

theorem present?_of_absent {ms : Members} {key : String} (found : ms.get? key = none) :
    ms.present? key = none := by
  rw [present?, found]

theorem present?_of_null {ms : Members} {key : String} (found : ms.get? key = some .null) :
    ms.present? key = none := by
  rw [present?, found]

theorem present?_congr {ms others : Members} {key : String} (same : ms.get? key = others.get? key) :
    ms.present? key = others.present? key := by
  rw [present?, present?, same]

end Json.Members

namespace Fields

section

variable {o : RenderOptions} {key : String} {ms : Members}

theorem present?_render? {s : Scalar} {v : s.Value} (found : ms.get? key = s.render? o v) :
    ms.present? key = none ∧ v = s.zero ∨ ms.present? key = some (s.toJson o v) := by
  unfold Scalar.render? at found
  split at found
  · rename_i left_out
    exact .inl ⟨Members.present?_of_absent found, left_out.1⟩
  · exact .inr (Members.present?_eq_some_iff.mpr ⟨found, s.toJson_ne_null o v⟩)

variable {α : Type} {render : α → Members}

theorem present?_renderMessage? {m : Option α} (found : ms.get? key = renderMessage? o render m) :
    ms.present? key = m.map fun m => .obj (render m) := by
  cases m with
  | none =>
    simp only [renderMessage?] at found
    split at found
    · exact Members.present?_of_null found
    · exact Members.present?_of_absent found
  | some m => exact Members.present?_eq_some_iff.mpr ⟨found, Json.noConfusion⟩

theorem present?_renderRepeated? {as : List α} (found : ms.get? key = renderRepeated? o render as) :
    ms.present? key = none ∧ as = [] ∨
      ms.present? key = some (.arr (as.map fun a => .obj (render a))) := by
  unfold renderRepeated? at found
  split at found
  · rename_i left_out
    have empty : as.isEmpty = true := (Bool.and_eq_true_iff.mp left_out).1
    exact .inl ⟨Members.present?_of_absent found, List.isEmpty_iff.mp empty⟩
  · exact .inr (Members.present?_eq_some_iff.mpr ⟨found, Json.noConfusion⟩)

theorem mapM_readObject {path : String} {inner : Members → Except ObjectError α}
    (back : ∀ a, inner (render a) = .ok a) (as : List α) :
    (as.map fun a => Json.obj (render a)).mapM (readObject inner path) = .ok as := by
  induction as with
  | nil => rfl
  | cons a as ih =>
    rw [List.map_cons, List.mapM_cons, readObject, back, Except.ok_bind, ih]
    rfl

end

theorem get?_member_self (key : String) (v : Option Json) (ms : Members) :
    Members.get? (member key v ++ ms) key = v.or (ms.get? key) := by
  cases v with
  | none => rfl
  | some v => simp [member, Members.get?]

theorem get?_member_of_ne {key other : String} (different : other ≠ key) (v : Option Json)
    (ms : Members) : Members.get? (member key v ++ ms) other = ms.get? other := by
  cases v with
  | none => rfl
  | some v =>
    simp only [member, Members.get?, Option.map_some, Option.toList_some, List.singleton_append,
      List.lookup_cons, beq_eq_false_iff_ne.mpr different]

theorem get?_toMembers_of_not_mem {o : RenderOptions} {fs : Fields} {key : String}
    (undeclared : key ∉ fs.keys) (r : fs.Record) : Members.get? (fs.toMembers o r) key = none := by
  induction fs with
  | nil => rfl
  | scalar info kind rest ih | message info _ body rest _ ih | repeated info _ body rest _ ih =>
    obtain ⟨v, r⟩ := r
    obtain ⟨different, undeclared⟩ := not_or.mp fun either => undeclared (List.mem_cons.mpr either)
    rw [toMembers, get?_member_of_ne different]
    exact ih undeclared r

/-- The key of a field is not among the later ones, so its value is the one rendered for it. -/
theorem get?_first {o : RenderOptions} {info : FieldInfo} {rest : Fields} (fresh : info.Fresh rest)
    (v : Option Json) (r : rest.Record) :
    Members.get? (member info.key v ++ rest.toMembers o r) info.key = v := by
  rw [get?_member_self, get?_toMembers_of_not_mem fresh.key_fresh, Option.or_none]

theorem get?_later {info : FieldInfo} {rest : Fields} (fresh : info.Fresh rest) (v : Option Json)
    (ms : Members) : ∀ key ∈ rest.keys, Members.get? (member info.key v ++ ms) key = ms.get? key := by
  intro key declared
  have different : key ≠ info.key := fun same => fresh.key_fresh (same ▸ declared)
  exact get?_member_of_ne different v ms

/-- Nothing but the values of the declared keys is read. -/
theorem ofMembers_congr {owner : MessageName} {fs : Fields} {ms others : Members}
    (same : ∀ key ∈ fs.keys, ms.get? key = others.get? key) :
    fs.ofMembers owner ms = fs.ofMembers owner others := by
  induction fs with
  | nil => rfl
  | scalar info kind rest ih | message info _ body rest _ ih | repeated info _ body rest _ ih =>
    have first := Members.present?_congr (same info.key (List.mem_cons_self ..))
    have later := ih fun key declared => same key (List.mem_cons_of_mem _ declared)
    rw [ofMembers, ofMembers, first, later]

theorem verifyMembers_congr {fs : Fields} {ms others : Members}
    (same : ∀ key ∈ fs.keys, ms.get? key = others.get? key) :
    fs.verifyMembers ms = fs.verifyMembers others := by
  induction fs with
  | nil => rfl
  | scalar info kind rest ih | message info _ body rest _ ih | repeated info _ body rest _ ih =>
    have first := Members.present?_congr (same info.key (List.mem_cons_self ..))
    have later := ih fun key declared => same key (List.mem_cons_of_mem _ declared)
    rw [verifyMembers, verifyMembers, first, later]

theorem ofMembers_toMembers {fs : Fields} (wf : fs.WellFormed) (owner : MessageName)
    (o : RenderOptions) (r : fs.Record) : fs.ofMembers owner (fs.toMembers o r) = .ok r := by
  induction fs generalizing owner with
  | nil => rfl
  | scalar info kind rest ih =>
    obtain ⟨v, r⟩ := r
    obtain ⟨fresh, wf⟩ := wf
    rw [toMembers, ofMembers, ofMembers_congr (get?_later fresh _ _), ih wf]
    rcases present?_render? (get?_first fresh (kind.render? o v) r) with ⟨absent, rfl⟩ | present
    · rw [absent]
      rfl
    · rw [present]
      simp only [readMember, Scalar.ofJson_toJson]
      rfl
  | message info name body rest body_ih ih =>
    obtain ⟨m, r⟩ := r
    obtain ⟨fresh, body_wf, wf⟩ := wf
    rw [toMembers, ofMembers, ofMembers_congr (get?_later fresh _ _), ih wf,
      present?_renderMessage? (get?_first fresh (renderMessage? o (body.toMembers o) m) r)]
    cases m with
    | none => rfl
    | some m =>
      simp only [Option.map_some, readMember, readMessage, readObject, body_ih body_wf]
      rfl
  | repeated info name body rest body_ih ih =>
    obtain ⟨as, r⟩ := r
    obtain ⟨fresh, body_wf, wf⟩ := wf
    rw [toMembers, ofMembers, ofMembers_congr (get?_later fresh _ _), ih wf]
    rcases present?_renderRepeated? (get?_first fresh (renderRepeated? o (body.toMembers o) as) r)
      with ⟨absent, rfl⟩ | present
    · rw [absent]
      rfl
    · rw [present]
      simp only [readMember, readRepeated, mapM_readObject (body_ih body_wf name)]
      rfl

def EnumsKnown : (fs : Fields) → fs.Record → Prop
  | .nil, _ => True
  | .scalar _ kind rest, (v, r) => kind.EnumKnown v ∧ rest.EnumsKnown r
  | .message _ _ body rest, (m, r) => (∀ a ∈ m, body.EnumsKnown a) ∧ rest.EnumsKnown r
  | .repeated _ _ body rest, (as, r) => (∀ a ∈ as, body.EnumsKnown a) ∧ rest.EnumsKnown r

theorem verifyMembers_toMembers {fs : Fields} (wf : fs.WellFormed) (o : RenderOptions)
    (r : fs.Record) : fs.verifyMembers (fs.toMembers o r) = none ↔ fs.EnumsKnown r := by
  induction fs with
  | nil => exact ⟨fun _ => True.intro, fun _ => rfl⟩
  | scalar info kind rest ih =>
    obtain ⟨v, r⟩ := r
    obtain ⟨fresh, wf⟩ := wf
    rw [toMembers, verifyMembers, verifyMembers_congr (get?_later fresh _ _), Option.or_eq_none_iff]
    refine and_congr ?_ (ih wf r)
    rcases present?_render? (get?_first fresh (kind.render? o v) r) with ⟨absent, rfl⟩ | present
    · rw [absent]
      exact ⟨fun _ => kind.enumKnown_zero, fun _ => rfl⟩
    · rw [present, Option.bind_some, Scalar.verify, ← Scalar.accepts_toJson o]
      simp
  | message info name body rest body_ih ih =>
    obtain ⟨m, r⟩ := r
    obtain ⟨fresh, body_wf, wf⟩ := wf
    rw [toMembers, verifyMembers, verifyMembers_congr (get?_later fresh _ _), Option.or_eq_none_iff,
      present?_renderMessage? (get?_first fresh (renderMessage? o (body.toMembers o) m) r)]
    refine and_congr ?_ (ih wf r)
    cases m with
    | none => simp
    | some m => simp [verifyMessage, verifyObject, body_ih body_wf]
  | repeated info name body rest body_ih ih =>
    obtain ⟨as, r⟩ := r
    obtain ⟨fresh, body_wf, wf⟩ := wf
    rw [toMembers, verifyMembers, verifyMembers_congr (get?_later fresh _ _), Option.or_eq_none_iff]
    refine and_congr ?_ (ih wf r)
    rcases present?_renderRepeated? (get?_first fresh (renderRepeated? o (body.toMembers o) as) r)
      with ⟨absent, rfl⟩ | present
    · rw [absent]
      simp
    · rw [present]
      simp [verifyRepeated, verifyObject, List.findSome?_eq_none_iff, body_ih body_wf]

end Fields

namespace Schema

/-- What was rendered, in whatever form, is read as the record itself, and it is refused only for
numbers without a name. -/
theorem object_round_trip {s : Schema} (known : s ∈ Catalog.all) (o : RenderOptions) (r : s.Record) :
    s.readObject (s.toObject o r) = .ok r ∧
    (s.verify (s.toObject o r) = none ↔ s.fields.EnumsKnown r) := by
  have wf := (Catalog.wellFormed known).fields
  refine ⟨?_, Fields.verifyMembers_toMembers wf o r⟩
  have read : s.ofObject (s.toObject o r) = .ok r := Fields.ofMembers_toMembers wf s.name o r
  rw [readObject, read]
  rfl

theorem object_round_trip_unknown_number :
    KeystoreCommonExistsParam.schema ∈ Catalog.all ∧
    ∀ o, KeystoreCommonExistsParam.schema.readObject
        (KeystoreCommonExistsParam.schema.toObject o ((7 : Int32), "", ())) =
          .ok ((7 : Int32), "", ()) ∧
      KeystoreCommonExistsParam.schema.verify
        (KeystoreCommonExistsParam.schema.toObject o ((7 : Int32), "", ())) ≠ none := by
  have known : KeystoreCommonExistsParam.schema ∈ Catalog.all := by decide +kernel
  refine ⟨known, fun o => ?_⟩
  obtain ⟨read, verified⟩ := object_round_trip known o ((7 : Int32), "", ())
  refine ⟨read, fun accepted => ?_⟩
  obtain ⟨⟨k, number⟩, _⟩ := verified.mp accepted
  cases k <;> exact absurd number (by decide)

end Schema

theorem Message.ofObject_toObject {α : Type} [Message α] (known : schemaOf α ∈ Catalog.all)
    (o : RenderOptions) (a : α) : ofObject (toObject o a) = .ok a := by
  have wf := (Catalog.wellFormed known).fields
  have read : (schemaOf α).ofObject ((schemaOf α).toObject o (toRecord a)) = .ok (toRecord a) :=
    Fields.ofMembers_toMembers wf (schemaOf α).name o (toRecord a)
  simp only [ofObject, toObject, Schema.readObject, read]
  exact congrArg Except.ok (ofRecord_toRecord a)

end WalletBridge
