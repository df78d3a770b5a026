import WalletBridge.Message.Envelope
import WalletBridge.Proofs.Result
import WalletBridge.Proofs.Text.Base64

namespace WalletBridge

open Json

inductive Field
  | scalar (info : FieldInfo) (kind : Scalar)
  | message (info : FieldInfo) (name : MessageName) (body : Fields)
  | repeated (info : FieldInfo) (name : MessageName) (body : Fields)

def Field.key : Field → String
  | .scalar info _ | .message info _ _ | .repeated info _ _ => info.key

def Fields.toList : Fields → List Field
  | .nil => []
  | .scalar info kind rest => .scalar info kind :: rest.toList
  | .message info name body rest => .message info name body :: rest.toList
  | .repeated info name body rest => .repeated info name body :: rest.toList

/-- A value that does not fit: of a whole message, or of a field and the message that declares it. -/
inductive Offender
  | whole (name : MessageName)
  | field (owner : MessageName) (key : String) (mismatch : Mismatch)
  deriving DecidableEq

namespace Offender

def error : Offender → ObjectError
  | .whole name => ⟨name.full, .object⟩
  | .field owner key mismatch => ⟨owner.full ++ "." ++ key, mismatch⟩

def text : Offender → String
  | .whole name => name.full ++ ": object expected"
  | .field owner key .object => owner.full ++ "." ++ key ++ ": object expected"
  | .field owner key .array => owner.full ++ "." ++ key ++ ": array expected"
  | .field owner key .encoding => owner.full ++ "." ++ key ++ ": invalid encoding"

theorem message_error (o : Offender) : o.error.message = o.text := by
  cases o with
  | whole name => exact String.append_assoc ..
  | field owner key mismatch => cases mismatch <;> exact String.append_assoc ..

end Offender

def Scalar.offenders (owner : MessageName) (key : String) : Scalar → Json → List Offender
  | .bytes, .str s => if Base64.IsText s.toList then [] else [.field owner key .encoding]
  | _, _ => []

namespace Fields

def objectOffenders (inner : Members → List Offender) (self : Offender) : Json → List Offender
  | .obj ms => inner ms
  | _ => [self]

def arrayOffenders (inner : Members → List Offender) (owner : MessageName) (key : String) :
    Json → List Offender
  | .arr items => items.flatMap (objectOffenders inner (.field owner key .object))
  | _ => [.field owner key .array]

def memberOffenders (offenders : Json → List Offender) (v : Option Json) : List Offender :=
  v.elim [] offenders

/-- All that does not fit, field by field and with what is nested in each. -/
def offenders (owner : MessageName) : Fields → Members → List Offender
  | .nil, _ => []
  | .scalar info kind rest, ms =>
    memberOffenders (kind.offenders owner info.key) (ms.present? info.key) ++
      rest.offenders owner ms
  | .message info name body rest, ms =>
    memberOffenders (objectOffenders (body.offenders name) (.field owner info.key .object))
        (ms.present? info.key) ++
      rest.offenders owner ms
  | .repeated info name body rest, ms =>
    memberOffenders (arrayOffenders (body.offenders name) owner info.key) (ms.present? info.key) ++
      rest.offenders owner ms

end Fields

def Schema.offenders (s : Schema) (v : Json) : List Offender :=
  Fields.objectOffenders (s.fields.offenders s.name) (.whole s.name) v

structure Reports {ι α : Type} (read : ι → Except ObjectError α) (offenders : ι → List Offender) :
    Prop where
  succeeds : ∀ {v}, offenders v = [] → ∃ a, read v = .ok a
  fails : ∀ {v o later}, offenders v = o :: later → read v = .error o.error

namespace Reports

variable {ι α β : Type}

theorem object {read : Members → Except ObjectError α} {offenders : Members → List Offender}
    (reports : Reports read offenders) {path : String} {self : Offender}
    (named : self.error = ⟨path, .object⟩) :
    Reports (Fields.readObject read path) (Fields.objectOffenders offenders self) where
  succeeds {v} none := by
    cases v with
    | obj ms => exact reports.succeeds none
    | _ => cases none
  fails {v o later} first := by
    cases v with
    | obj ms => exact reports.fails first
    | _ =>
      cases first
      exact congrArg Except.error named.symm

theorem map {read : ι → Except ObjectError α} {offenders : ι → List Offender}
    (reports : Reports read offenders) (f : α → β) :
    Reports (fun v => (read v).map f) offenders where
  succeeds none := by
    obtain ⟨a, succeeded⟩ := reports.succeeds none
    exact ⟨f a, congrArg (Except.map f) succeeded⟩
  fails first := congrArg (Except.map f) (reports.fails first)

theorem member {read : Json → Except ObjectError α} {offenders : Json → List Offender}
    (reports : Reports read offenders) (zero : α) (key : String) :
    Reports (fun ms : Members => Fields.readMember zero read (ms.present? key))
      (fun ms => Fields.memberOffenders offenders (ms.present? key)) where
  succeeds {ms} none := by
    cases found : ms.present? key with
    | none => exact ⟨zero, rfl⟩
    | some v =>
      rw [found] at none
      exact reports.succeeds none
  fails {ms o later} first := by
    cases found : ms.present? key with
    | none =>
      rw [found] at first
      cases first
    | some v =>
      rw [found] at first
      exact reports.fails first

theorem and {read : ι → Except ObjectError α} {readLater : ι → Except ObjectError β}
    {offenders offendersLater : ι → List Offender} (reports : Reports read offenders)
    (later : Reports readLater offendersLater) :
    Reports (fun v => do let a ← read v; return (a, ← readLater v))
      (fun v => offenders v ++ offendersLater v) where
  succeeds {v} none := by
    obtain ⟨first, second⟩ := List.append_eq_nil_iff.mp none
    obtain ⟨a, read⟩ := reports.succeeds first
    obtain ⟨b, read_later⟩ := later.succeeds second
    exact ⟨(a, b), by rw [read, read_later]; rfl⟩
  fails {v o rest} first := by
    cases here : offenders v with
    | nil =>
      obtain ⟨a, read⟩ := reports.succeeds here
      rw [here, List.nil_append] at first
      rw [read, later.fails first]
      rfl
    | cons o' rest' =>
      rw [here, List.cons_append] at first
      cases first
      rw [reports.fails here]
      rfl

theorem items {read : ι → Except ObjectError α} {offenders : ι → List Offender}
    (reports : Reports read offenders) :
    Reports (fun vs : List ι => vs.mapM read) (fun vs => vs.flatMap offenders) where
  succeeds {vs} none := by
    induction vs with
    | nil => exact ⟨[], rfl⟩
    | cons v vs ih =>
      rw [List.flatMap_cons] at none
      obtain ⟨first, later⟩ := List.append_eq_nil_iff.mp none
      obtain ⟨a, read⟩ := reports.succeeds first
      obtain ⟨as, read_later⟩ := ih later
      exact ⟨a :: as, by rw [List.mapM_cons, read, Except.ok_bind, read_later]; rfl⟩
  fails {vs o later} first := by
    induction vs with
    | nil => cases first
    | cons v vs ih =>
      rw [List.flatMap_cons] at first
      rw [List.mapM_cons]
      cases here : offenders v with
      | nil =>
        obtain ⟨a, read⟩ := reports.succeeds here
        rw [here, List.nil_append] at first
        rw [read, Except.ok_bind, ih first]
        rfl
      | cons o' rest =>
        rw [here, List.cons_append] at first
        cases first
        rw [reports.fails here]
        rfl

theorem repeated {read : Members → Except ObjectError α} {offenders : Members → List Offender}
    (reports : Reports read offenders) (owner : MessageName) (key : String) :
    Reports (Fields.readRepeated read (owner.full ++ "." ++ key))
      (Fields.arrayOffenders offenders owner key) where
  succeeds {v} none := by
    cases v with
    | arr items => exact (reports.object rfl).items.succeeds none
    | _ => cases none
  fails {v o later} first := by
    cases v with
    | arr items => exact (reports.object rfl).items.fails first
    | _ =>
      cases first
      rfl

end Reports

theorem Scalar.offenders_ne_nil_iff {kind : Scalar} {owner : MessageName} {key : String} {v : Json} :
    kind.offenders owner key v ≠ [] ↔
      kind = .bytes ∧ ∃ s, v = .str s ∧ ¬ Base64.IsText s.toList := by
  cases kind with
  | bytes => cases v <;> simp [offenders]
  | _ => simp [offenders]

/-- Of all scalars only bytes can fail, and only on text. -/
theorem Scalar.reports (kind : Scalar) (owner : MessageName) (key : String) :
    Reports (kind.ofJson (owner.full ++ "." ++ key)) (kind.offenders owner key) where
  succeeds {v} none := by
    cases kind with
    | bytes =>
      cases v with
      | str s =>
        cases decoded : Base64.decode? s with
        | none => simp [offenders, Base64.decode?_eq_none_iff.mp decoded] at none
        | some b => exact ⟨b, by simp only [ofJson, decoded]⟩
      | _ => exact ⟨_, rfl⟩
    | string | keyType => cases v <;> exact ⟨_, rfl⟩
    | _ => exact ⟨_, rfl⟩
  fails {v o later} first := by
    cases kind with
    | bytes =>
      cases v with
      | str s =>
        cases decoded : Base64.decode? s with
        | none =>
          rw [offenders, if_neg (Base64.decode?_eq_none_iff.mp decoded)] at first
          cases first
          simp only [ofJson, decoded]
          rfl
        | some b =>
          rw [offenders, if_pos ⟨b, Base64.decode?_eq_some_iff.mp decoded⟩] at first
          cases first
      | _ => cases first
    | _ => cases first

theorem Fields.reports (fs : Fields) (owner : MessageName) :
    Reports (fs.ofMembers owner) (fs.offenders owner) := by
  induction fs generalizing owner with
  | nil => exact ⟨fun _ => ⟨(), rfl⟩, nofun⟩
  | scalar info kind rest ih =>
    exact ((kind.reports owner info.key).member kind.zero info.key).and (ih owner)
  | message info name body rest body_ih ih =>
    exact ((((body_ih name).object rfl).map some).member none info.key).and (ih owner)
  | repeated info name body rest body_ih ih =>
    exact (((body_ih name).repeated owner info.key).member [] info.key).and (ih owner)

namespace Schema

theorem reports (s : Schema) : Reports s.ofObject s.offenders :=
  (s.fields.reports s.name).object rfl

theorem readObject_error_iff {s : Schema} {v : Json} {e : MessageError} :
    s.readObject v = .error e ↔ ∃ o, (s.offenders v).head? = some o ∧ e = .object o.error := by
  cases found : s.offenders v with
  | nil =>
    obtain ⟨r, succeeded⟩ := s.reports.succeeds found
    have read : s.readObject v = .ok r := by
      rw [readObject, succeeded]
      rfl
    simp [read]
  | cons o later =>
    have failed : s.readObject v = .error (.object o.error) := by
      rw [readObject, s.reports.fails found]
      rfl
    simp [failed, eq_comm]

theorem readObject_fails_iff {s : Schema} {v : Json} :
    (∃ e, s.readObject v = .error e) ↔ s.offenders v ≠ [] := by
  simp only [readObject_error_iff]
  cases s.offenders v <;> simp

end Schema

def Field.Rejects : Field → Json → Prop
  | .scalar _ kind, v => kind = .bytes ∧ ∃ s, v = .str s ∧ ¬ Base64.IsText s.toList
  | .message _ name body, v =>
    v.members? = none ∨ ∃ e, (Schema.mk name body).readObject v = .error e
  | .repeated _ name body, v =>
    v.items? = none ∨ ∃ items, v = .arr items ∧ ∃ item ∈ items,
      item.members? = none ∨ ∃ e, (Schema.mk name body).readObject item = .error e

namespace Fields

theorem memberOffenders_ne_nil_iff {offenders : Json → List Offender} {ms : Members} {key : String} :
    memberOffenders offenders (ms.present? key) ≠ [] ↔
      ∃ v, ms.get? key = some v ∧ v ≠ .null ∧ offenders v ≠ [] := by
  unfold Members.present?
  cases found : ms.get? key with
  | none => simp [memberOffenders]
  | some v =>
    cases v with
    | null => simp [memberOffenders]
    | _ => simp [memberOffenders]

theorem objectOffenders_ne_nil_iff {name : MessageName} {body : Fields} {self : Offender} {v : Json} :
    objectOffenders (body.offenders name) self v ≠ [] ↔
      v.members? = none ∨ ∃ e, (Schema.mk name body).readObject v = .error e := by
  rw [Schema.readObject_fails_iff]
  cases v with
  | obj ms => simp [objectOffenders, Schema.offenders, members?]
  | _ => simp [objectOffenders, members?]

theorem arrayOffenders_ne_nil_iff {name owner : MessageName} {body : Fields} {key : String}
    {v : Json} :
    arrayOffenders (body.offenders name) owner key v ≠ [] ↔
      v.items? = none ∨ ∃ items, v = .arr items ∧ ∃ item ∈ items,
        item.members? = none ∨ ∃ e, (Schema.mk name body).readObject item = .error e := by
  cases v with
  | arr items =>
    have some_item : arrayOffenders (body.offenders name) owner key (.arr items) ≠ [] ↔
        ∃ item ∈ items,
          objectOffenders (body.offenders name) (.field owner key .object) item ≠ [] := by
      simp [arrayOffenders]
    simp only [some_item, objectOffenders_ne_nil_iff]
    simp [items?]
  | _ => simp [arrayOffenders, items?]

theorem offenders_ne_nil_iff {fs : Fields} {owner : MessageName} {ms : Members} :
    fs.offenders owner ms ≠ [] ↔
      ∃ f ∈ fs.toList, ∃ v, ms.get? f.key = some v ∧ v ≠ .null ∧ f.Rejects v := by
  have append_ne_nil {first later : List Offender} :
      first ++ later ≠ [] ↔ first ≠ [] ∨ later ≠ [] := by
    rw [ne_eq, List.append_eq_nil_iff, Decidable.not_and_iff_or_not]
  induction fs with
  | nil => simp [offenders, toList]
  | scalar info kind rest ih =>
    simp only [offenders, append_ne_nil, ih, memberOffenders_ne_nil_iff, toList, List.mem_cons,
      exists_eq_or_imp, Field.key, Field.Rejects, Scalar.offenders_ne_nil_iff]
  | message info name body rest body_ih ih =>
    simp only [offenders, append_ne_nil, ih, memberOffenders_ne_nil_iff, toList, List.mem_cons,
      exists_eq_or_imp, Field.key, Field.Rejects, objectOffenders_ne_nil_iff]
  | repeated info name body rest body_ih ih =>
    simp only [offenders, append_ne_nil, ih, memberOffenders_ne_nil_iff, toList, List.mem_cons,
      exists_eq_or_imp, Field.key, Field.Rejects, arrayOffenders_ne_nil_iff]

end Fields

namespace Schema

/-- Reading fails on no more than the wrong shapes and the texts that are no base64, in the value
itself, in a declared key that is not null, or further down. It reports the first of them. -/
theorem readObject_error (s : Schema) (v : Json) :
    ((∃ e, s.readObject v = .error e) ↔
      v.members? = none ∨ ∃ ms, v = .obj ms ∧
        ∃ f ∈ s.fields.toList, ∃ w, Members.get? ms f.key = some w ∧ w ≠ .null ∧ f.Rejects w) ∧
    ∀ e, s.readObject v = .error e ↔ ∃ o, (s.offenders v).head? = some o ∧ e = .object o.error ∧
      o.error.message = o.text := by
  refine ⟨?_, fun e => ?_⟩
  · rw [readObject_fails_iff]
    cases v with
    | obj ms => simp [offenders, Fields.objectOffenders, Fields.offenders_ne_nil_iff, members?]
    | _ => simp [offenders, Fields.objectOffenders, members?]
  · simp only [readObject_error_iff, Offender.message_error, and_true]

/-- The bytes are no base64 and the first field is no string, which is no offence. -/
example :
    ((Message.schemaOf Action).offenders
      (.obj [("param", .obj [("value", .str "*")]), ("method", .arr [])])).map Offender.text =
      ["google.protobuf.Any.value: invalid encoding"] := by decide +kernel

end Schema

end WalletBridge
