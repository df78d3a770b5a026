import WalletBridge.Proofs.Object.RoundTrip

namespace WalletBridge

open Json

namespace Json

inductive HasNull : Json → Prop
  | null : HasNull .null
  | item {v : Json} {items : List Json} (member : v ∈ items) (inside : HasNull v) :
      HasNull (.arr items)
  | member {key : String} {v : Json} {ms : Members} (member : (key, v) ∈ ms) (inside : HasNull v) :
      HasNull (.obj ms)

def Members.Shows (ms : Members) (key : String) (shown : Prop) (form : Json → Prop) : Prop :=
  ((ms.get? key).isSome ↔ shown) ∧ ∀ v, ms.get? key = some v → form v

/-- An object with some of the keys and no others, each once, and members as described. -/
def IsObjectOf (keys : List String) (described : Members → Prop) (v : Json) : Prop :=
  ∃ ms : Members, v = .obj ms ∧ (ms.map Prod.fst).Nodup ∧ (∀ key ∈ ms.map Prod.fst, key ∈ keys) ∧
    described ms

end Json

namespace Fields

def MessageForm {α : Type} (form : α → Json → Prop) : Option α → Json → Prop
  | none, v => v = .null
  | some m, v => form m v

def RepeatedForm {α : Type} (form : α → Json → Prop) (ms : List α) (v : Json) : Prop :=
  ∃ items, v = .arr items ∧ List.Forall₂ form ms items

/-- A field is shown if it is not zero or zeros are shown, of which the empty lists may be shown alone.
Scalars hold no null, so an absent message is all that null stands for. -/
def Renders (o : RenderOptions) : (fs : Fields) → fs.Record → Members → Prop
  | .nil, _, _ => True
  | .scalar info kind rest, (v, r), ms =>
    ms.Shows info.key (v ≠ kind.zero ∨ o.defaults) (fun j => j = kind.toJson o v ∧ ¬ j.HasNull) ∧
      rest.Renders o r ms
  | .message info _ body rest, (m, r), ms =>
    ms.Shows info.key (m.isSome ∨ o.defaults)
        (MessageForm (fun m => IsObjectOf body.keys (body.Renders o m)) m) ∧
      rest.Renders o r ms
  | .repeated info _ body rest, (as, r), ms =>
    ms.Shows info.key (as ≠ [] ∨ o.defaults ∨ o.arrays)
        (RepeatedForm (fun a => IsObjectOf body.keys (body.Renders o a)) as) ∧
      rest.Renders o r ms

end Fields

def Schema.Renders (o : RenderOptions) (s : Schema) (r : s.Record) : Json → Prop :=
  IsObjectOf s.fields.keys (s.fields.Renders o r)

/-- The same forms, and every zero that the first options show the others show as well. -/
structure RenderOptions.Below (o o' : RenderOptions) : Prop where
  longs : o.longs = o'.longs
  enums : o.enums = o'.enums
  bytes : o.bytes = o'.bytes
  defaults : o.defaults → o'.defaults
  arrays : o.arrays → o'.arrays

namespace Fields

def ObjectExtends (inner : Members → Members → Prop) (v w : Json) : Prop :=
  ∃ ms others : Members, v = .obj ms ∧ w = .obj others ∧ inner ms others

def MessageExtends (inner : Members → Members → Prop) (v w : Json) : Prop :=
  v = .null ∧ w = .null ∨ ObjectExtends inner v w

def RepeatedExtends (inner : Members → Members → Prop) (v w : Json) : Prop :=
  ∃ items others, v = .arr items ∧ w = .arr others ∧ List.Forall₂ (ObjectExtends inner) items others

def MemberExtends (related : Json → Json → Prop) (ms others : Members) (key : String) : Prop :=
  ∀ v, ms.get? key = some v → ∃ w, others.get? key = some w ∧ related v w

/-- The others have all that is there, with equal scalars and with messages that extend those here. -/
def Extends : Fields → Members → Members → Prop
  | .nil, _, _ => True
  | .scalar info _ rest, ms, others =>
    MemberExtends Eq ms others info.key ∧ rest.Extends ms others
  | .message info _ body rest, ms, others =>
    MemberExtends (MessageExtends body.Extends) ms others info.key ∧ rest.Extends ms others
  | .repeated info _ body rest, ms, others =>
    MemberExtends (RepeatedExtends body.Extends) ms others info.key ∧ rest.Extends ms others

end Fields

def Schema.Extends (s : Schema) : Json → Json → Prop :=
  Fields.ObjectExtends s.fields.Extends

namespace Scalar

theorem not_hasNull_str (s : String) : ¬ (str s).HasNull := by
  intro inside
  cases inside

theorem not_hasNull_ofInt (n : Int) : ¬ (ofInt n).HasNull := by
  intro inside
  cases inside

theorem not_hasNull_toJson (o : RenderOptions) (s : Scalar) (v : s.Value) :
    ¬ (s.toJson o v).HasNull := by
  cases s with
  | string => exact not_hasNull_str _
  | bool =>
    intro inside
    cases inside
  | int32 | uint32 => exact not_hasNull_ofInt _
  | int64 =>
    rw [toJson]
    cases o.longs with
    | number => exact not_hasNull_ofInt _
    | text => exact not_hasNull_str _
  | bytes =>
    rw [toJson]
    cases o.bytes with
    | octets =>
      rintro (_ | ⟨member, inside⟩)
      obtain ⟨b, _, rfl⟩ := List.mem_map.mp member
      exact not_hasNull_ofInt _ inside
    | base64 => exact not_hasNull_str _
  | keyType =>
    rw [toJson]
    cases o.enums with
    | number => exact not_hasNull_ofInt _
    | name =>
      cases KeyType.ofNumber? v with
      | none => exact not_hasNull_ofInt _
      | some k => exact not_hasNull_str _

theorem toJson_of_below {o o' : RenderOptions} (below : o.Below o') (s : Scalar) (v : s.Value) :
    s.toJson o' v = s.toJson o v := by
  cases s with
  | string | bool | int32 | uint32 => rfl
  | int64 => rw [toJson, toJson, below.longs]
  | bytes => rw [toJson, toJson, below.bytes]
  | keyType => rw [toJson, toJson, below.enums]

theorem render?_eq (o : RenderOptions) (s : Scalar) (v : s.Value) :
    s.render? o v = if v ≠ s.zero ∨ o.defaults then some (s.toJson o v) else none := by
  unfold render?
  by_cases zero : v = s.zero <;> cases o.defaults <;> simp [zero]

end Scalar

namespace Json.Members

variable {ms others : Members} {key : String} {shown shown' : Prop} [Decidable shown]
  [Decidable shown'] {v w : Json}

theorem shows_of_get? {form : Json → Prop} (found : ms.get? key = if shown then some v else none)
    (has_form : form v) : ms.Shows key shown form := by
  unfold Shows
  rw [found]
  split <;> simp [*]

theorem extends_of_get? {related : Json → Json → Prop}
    (found : ms.get? key = if shown then some v else none)
    (found' : others.get? key = if shown' then some w else none) (stays : shown → shown')
    (values : related v w) : Fields.MemberExtends related ms others key := by
  intro v' there
  rw [found] at there
  split at there
  · rename_i is_shown
    cases there
    exact ⟨w, found'.trans (if_pos (stays is_shown)), values⟩
  · cases there

end Json.Members

namespace Fields

section

variable {α : Type} (o : RenderOptions) (inner : α → Members)

theorem renderMessage?_eq (m : Option α) :
    renderMessage? o inner m =
      if m.isSome ∨ o.defaults then some (m.elim .null fun m => .obj (inner m)) else none := by
  cases m <;> cases defaults : o.defaults <;> simp [renderMessage?, defaults]

theorem renderRepeated?_eq (as : List α) :
    renderRepeated? o inner as =
      if as ≠ [] ∨ o.defaults ∨ o.arrays then some (.arr (as.map fun a => .obj (inner a)))
      else none := by
  cases as <;> cases defaults : o.defaults <;> cases arrays : o.arrays <;>
    simp [renderRepeated?, defaults, arrays]

end

theorem keys_toMembers_sublist (o : RenderOptions) (fs : Fields) (r : fs.Record) :
    ((fs.toMembers o r).map Prod.fst).Sublist fs.keys := by
  have at_most_one (key : String) (v : Option Json) : ((member key v).map Prod.fst).Sublist [key] := by
    cases v with
    | none => exact List.nil_sublist _
    | some v => exact List.Sublist.refl _
  induction fs with
  | nil => exact List.nil_sublist _
  | scalar info kind rest ih | message info _ body rest _ ih | repeated info _ body rest _ ih =>
    obtain ⟨v, r⟩ := r
    rw [toMembers, List.map_append]
    exact (at_most_one _ _).append (ih r)

theorem nodup_keys {fs : Fields} (wf : fs.WellFormed) : fs.keys.Nodup := by
  induction fs with
  | nil => exact List.nodup_nil
  | scalar info kind rest ih => exact List.nodup_cons.mpr ⟨wf.1.key_fresh, ih wf.2⟩
  | message info _ body rest _ ih | repeated info _ body rest _ ih =>
    exact List.nodup_cons.mpr ⟨wf.1.key_fresh, ih wf.2.2⟩

theorem isObjectOf_toMembers {fs : Fields} (wf : fs.WellFormed) (o : RenderOptions) (r : fs.Record)
    {described : Members → Prop} (holds : described (fs.toMembers o r)) :
    IsObjectOf fs.keys described (.obj (fs.toMembers o r)) := by
  have declared := keys_toMembers_sublist o fs r
  exact ⟨_, rfl, declared.nodup (nodup_keys wf), fun key => declared.mem, holds⟩

/-- Among members that agree with those rendered, the first key has what is rendered for the first field,
and under the later keys they agree with what is rendered for the later fields. -/
theorem agree_first_later {o : RenderOptions} {info : FieldInfo} {rest : Fields}
    (fresh : info.Fresh rest) {v : Option Json} {r : rest.Record} {ms : Members}
    (same : ∀ key ∈ info.key :: rest.keys,
      ms.get? key = Members.get? (member info.key v ++ rest.toMembers o r) key) :
    ms.get? info.key = v ∧ ∀ key ∈ rest.keys, ms.get? key = Members.get? (rest.toMembers o r) key := by
  refine ⟨(same _ (List.mem_cons_self ..)).trans (get?_first fresh v r), fun key declared => ?_⟩
  exact (same key (List.mem_cons_of_mem _ declared)).trans (get?_later fresh v _ key declared)

theorem renders_of_agree {fs : Fields} (wf : fs.WellFormed) (o : RenderOptions) (r : fs.Record)
    {ms : Members} (same : ∀ key ∈ fs.keys, ms.get? key = Members.get? (fs.toMembers o r) key) :
    fs.Renders o r ms := by
  induction fs generalizing ms with
  | nil => exact True.intro
  | scalar info kind rest ih =>
    obtain ⟨v, r⟩ := r
    obtain ⟨fresh, wf⟩ := wf
    obtain ⟨first, later⟩ := agree_first_later fresh same
    refine ⟨?_, ih wf r later⟩
    rw [Scalar.render?_eq] at first
    exact Members.shows_of_get? first ⟨rfl, kind.not_hasNull_toJson o v⟩
  | message info name body rest body_ih ih =>
    obtain ⟨m, r⟩ := r
    obtain ⟨fresh, body_wf, wf⟩ := wf
    obtain ⟨first, later⟩ := agree_first_later fresh same
    refine ⟨?_, ih wf r later⟩
    rw [renderMessage?_eq] at first
    refine Members.shows_of_get? first ?_
    cases m with
    | none => rfl
    | some m => exact isObjectOf_toMembers body_wf o m (body_ih body_wf m fun _ _ => rfl)
  | repeated info name body rest body_ih ih =>
    obtain ⟨as, r⟩ := r
    obtain ⟨fresh, body_wf, wf⟩ := wf
    obtain ⟨first, later⟩ := agree_first_later fresh same
    refine ⟨?_, ih wf r later⟩
    rw [renderRepeated?_eq] at first
    refine Members.shows_of_get? first ⟨_, rfl, ?_⟩
    refine List.forall₂_map_right_iff.mpr (List.forall₂_same.mpr fun a _ => ?_)
    exact isObjectOf_toMembers body_wf o a (body_ih body_wf a fun _ _ => rfl)

theorem extends_of_agree {fs : Fields} (wf : fs.WellFormed) {o o' : RenderOptions}
    (below : o.Below o') (r : fs.Record) {ms others : Members}
    (same : ∀ key ∈ fs.keys, ms.get? key = Members.get? (fs.toMembers o r) key)
    (same' : ∀ key ∈ fs.keys, others.get? key = Members.get? (fs.toMembers o' r) key) :
    fs.Extends ms others := by
  induction fs generalizing ms others with
  | nil => exact True.intro
  | scalar info kind rest ih =>
    obtain ⟨v, r⟩ := r
    obtain ⟨fresh, wf⟩ := wf
    obtain ⟨first, later⟩ := agree_first_later fresh same
    obtain ⟨first', later'⟩ := agree_first_later fresh same'
    refine ⟨?_, ih wf r later later'⟩
    rw [Scalar.render?_eq] at first first'
    exact Members.extends_of_get? first first' (Or.imp_right below.defaults)
      (kind.toJson_of_below below v).symm
  | message info name body rest body_ih ih =>
    obtain ⟨m, r⟩ := r
    obtain ⟨fresh, body_wf, wf⟩ := wf
    obtain ⟨first, later⟩ := agree_first_later fresh same
    obtain ⟨first', later'⟩ := agree_first_later fresh same'
    refine ⟨?_, ih wf r later later'⟩
    rw [renderMessage?_eq] at first first'
    refine Members.extends_of_get? first first' (Or.imp_right below.defaults) ?_
    cases m with
    | none => exact .inl ⟨rfl, rfl⟩
    | some m => exact .inr ⟨_, _, rfl, rfl, body_ih body_wf m (fun _ _ => rfl) fun _ _ => rfl⟩
  | repeated info name body rest body_ih ih =>
    obtain ⟨as, r⟩ := r
    obtain ⟨fresh, body_wf, wf⟩ := wf
    obtain ⟨first, later⟩ := agree_first_later fresh same
    obtain ⟨first', later'⟩ := agree_first_later fresh same'
    refine ⟨?_, ih wf r later later'⟩
    rw [renderRepeated?_eq] at first first'
    have stays : as ≠ [] ∨ o.defaults ∨ o.arrays → as ≠ [] ∨ o'.defaults ∨ o'.arrays :=
      Or.imp_right (Or.imp below.defaults below.arrays)
    refine Members.extends_of_get? first first' stays ⟨_, _, rfl, rfl, ?_⟩
    refine List.forall₂_map_left_iff.mpr (List.forall₂_map_right_iff.mpr ?_)
    refine List.forall₂_same.mpr fun a _ => ⟨_, _, rfl, rfl, ?_⟩
    exact body_ih body_wf a (fun _ _ => rfl) fun _ _ => rfl

end Fields

namespace Schema

/-- At every level an object has a member for each field that is not zero or whose zeros the options
show, and no other; with options that show more zeros in the same forms it only gains members. -/
theorem rendered_exactly {s : Schema} (known : s ∈ Catalog.all) (o : RenderOptions) (r : s.Record) :
    s.Renders o r (s.toObject o r) ∧
    ∀ o' : RenderOptions, o.Below o' → s.Extends (s.toObject o r) (s.toObject o' r) := by
  have wf := (Catalog.wellFormed known).fields
  refine ⟨?_, fun o' below => ⟨_, _, rfl, rfl, ?_⟩⟩
  · exact Fields.isObjectOf_toMembers wf o r (Fields.renders_of_agree wf o r fun _ _ => rfl)
  · exact Fields.extends_of_agree wf below r (fun _ _ => rfl) fun _ _ => rfl

/-- An empty message as a parameter is not the same as none. -/
theorem rendered_exactly_emptyParam :
    let s := Message.schemaOf Action
    let r : s.Record := Message.toRecord ({ param := some {} } : Action)
    let all : RenderOptions := { defaults := true }
    let bare : Json := .obj [("param", .obj [])]
    let full : Json :=
      .obj [("method", .str ""), ("param", .obj [("type_url", .str ""), ("value", .arr [])])]
    s ∈ Catalog.all ∧ RenderOptions.Below {} all ∧ s.toObject {} r = bare ∧ s.toObject all r = full ∧
    s.Renders {} r bare ∧ s.Renders all r full ∧ s.Extends bare full ∧
    s.toObject all s.zero = .obj [("method", .str ""), ("param", .null)] := by
  intro s r all bare full
  have known : s ∈ Catalog.all := by decide +kernel
  have below : RenderOptions.Below {} all := ⟨rfl, rfl, rfl, fun _ => rfl, id⟩
  obtain ⟨renders, grows⟩ := rendered_exactly known {} r
  exact ⟨known, below, rfl, rfl, renders, (rendered_exactly known all r).1, grows all below, rfl⟩

end Schema

end WalletBridge
