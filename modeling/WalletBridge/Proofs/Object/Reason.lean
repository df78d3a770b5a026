import WalletBridge.Proofs.Object.Offender
import WalletBridge.Proofs.Object.Reading
import WalletBridge.Proofs.Text.Base64

namespace WalletBridge

open Json

namespace Json

def IsIntegerIn (low high : Int) (v : Json) : Prop :=
  ∃ n : Int, v.IsNumber n ∧ low ≤ n ∧ n ≤ high

inductive IsLong : Json → Prop
  | number {v : Json} (integer : v.IsIntegerIn (-0x8000000000000000) 0x7fffffffffffffff) : IsLong v
  | text {s : String} {n : Int} (spells : Spells s n) (low : -0x8000000000000000 ≤ n)
      (high : n < 0x8000000000000000) : IsLong (.str s)
  | halves {ms : Members} {low high : Json} (lower : ms.get? "low" = some low)
      (upper : ms.get? "high" = some high) (low_half : low.IsIntegerIn (-0x80000000) 0xffffffff)
      (high_half : high.IsIntegerIn (-0x80000000) 0xffffffff) : IsLong (.obj ms)

inductive IsBytes : Json → Prop
  | text {s : String} {b : Bytes} (spells : Base64.Spells s.toList b) : IsBytes (.str s)
  | octets {items : List Json} (each : ∀ item ∈ items, item.IsIntegerIn 0 255) : IsBytes (.arr items)

inductive IsKeyType : Json → Prop
  | name (k : KeyType) : IsKeyType (.str k.name)
  | number {v : Json} (k : KeyType) (number : v.IsNumber k.number.toInt) : IsKeyType v

theorem isLong_iff {v : Json} : v.isLong = true ↔ v.IsLong := by
  constructor
  · intro long
    cases v with
    | num n => exact .number (isIntegerIn_iff.mp long)
    | str s =>
      obtain ⟨n, read, fits⟩ := (Option.any_eq_true _ _).mp long
      simp only [fitsSigned, Bool.and_eq_true, decide_eq_true_eq] at fits
      exact .text (integerText?_eq_some_iff.mp read) fits.1 fits.2
    | obj ms =>
      simp only [isLong] at long
      split at long
      · rename_i lower upper
        obtain ⟨low_half, high_half⟩ := Bool.and_eq_true_iff.mp long
        exact .halves lower upper (isIntegerIn_iff.mp low_half) (isIntegerIn_iff.mp high_half)
      · cases long
    | _ => cases long
  · intro long
    cases long with
    | number integer =>
      obtain ⟨k, ⟨n, rfl, value⟩, range⟩ := integer
      exact isIntegerIn_iff.mpr ⟨k, ⟨n, rfl, value⟩, range⟩
    | text spells low high => simp [isLong, integerText?_eq_some_iff.mpr spells, fitsSigned, low, high]
    | halves lower upper low_half high_half =>
      simp [isLong, lower, upper, isHalf, isIntegerIn_iff.mpr low_half, isIntegerIn_iff.mpr high_half]

theorem isBytes_iff {v : Json} : Scalar.bytes.accepts v = true ↔ v.IsBytes := by
  constructor
  · intro accepted
    cases v with
    | str s =>
      obtain ⟨b, decoded⟩ := Option.isSome_iff_exists.mp accepted
      exact .text (Base64.decode?_eq_some_iff.mp decoded)
    | arr items =>
      exact .octets fun item member => isIntegerIn_iff.mp (List.all_eq_true.mp accepted item member)
    | _ => cases accepted
  · intro bytes
    cases bytes with
    | text spells => exact Option.isSome_iff_exists.mpr ⟨_, Base64.decode?_eq_some_iff.mpr spells⟩
    | octets each =>
      exact List.all_eq_true.mpr fun item member => isIntegerIn_iff.mpr (each item member)

theorem isKeyType_iff {v : Json} : Scalar.keyType.accepts v = true ↔ v.IsKeyType := by
  constructor
  · intro accepted
    obtain ⟨x, means⟩ := Scalar.means_of_accepts accepted
    cases means with
    | name k => exact .name k
    | number k number => exact .number k number
  · intro known
    cases known with
    | name k => exact Scalar.accepts_of_means (.name k)
    | number k number => exact Scalar.accepts_of_means (.number k number)

end Json

namespace Scalar

def Accepts : Scalar → Json → Prop
  | .string, v => ∃ s, v = .str s
  | .bool, v => ∃ b, v = .bool b
  | .int32, v => v.IsIntegerIn (-0x80000000) 0x7fffffff
  | .uint32, v => v.IsIntegerIn 0 0xffffffff
  | .int64, v => v.IsLong
  | .bytes, v => v.IsBytes
  | .keyType, v => v.IsKeyType

theorem accepts_iff {s : Scalar} {v : Json} : s.accepts v = true ↔ s.Accepts v := by
  cases s with
  | string | bool => cases v <;> simp [accepts, Accepts]
  | int32 | uint32 => exact isIntegerIn_iff
  | int64 => exact isLong_iff
  | bytes => exact isBytes_iff
  | keyType => exact isKeyType_iff

instance (s : Scalar) (v : Json) : Decidable (s.Accepts v) :=
  decidable_of_iff _ accepts_iff

def demand : Scalar → String
  | .string => "string expected"
  | .bool => "boolean expected"
  | .int32 | .uint32 => "integer expected"
  | .int64 => "integer|Long expected"
  | .bytes => "buffer expected"
  | .keyType => "enum value expected"

def reason? (s : Scalar) (key : String) (v : Json) : Option String :=
  if s.Accepts v then none else some (key ++ ": " ++ s.demand)

theorem map_message_verify (s : Scalar) (key : String) (v : Json) :
    (s.verify key v).map Objection.message = s.reason? key v := by
  by_cases accepted : s.Accepts v
  · rw [verify, reason?, if_pos (accepts_iff.mpr accepted), if_pos accepted]
    rfl
  · have said : (Objection.kind key s.expectation).message = key ++ ": " ++ s.demand := by
      rw [Objection.message, String.append_assoc]
      cases s <;> rfl
    rw [verify, reason?, if_neg fun passed => accepted (accepts_iff.mp passed), if_neg accepted]
    exact congrArg some said

theorem reason?_eq_none_iff {s : Scalar} {key : String} {v : Json} :
    s.reason? key v = none ↔ s.Accepts v := by
  simp [reason?]

end Scalar

namespace Fields

def objectReason? (reasons : Members → List String) : Json → Option String
  | .obj ms => (reasons ms).head?
  | _ => some "object expected"

def messageReason? (reasons : Members → List String) (key : String) (v : Json) : Option String :=
  (objectReason? reasons v).map fun reason => key ++ "." ++ reason

def arrayReason? (reasons : Members → List String) (key : String) : Json → Option String
  | .arr items => (items.findSome? (objectReason? reasons)).map fun reason => key ++ "." ++ reason
  | _ => some (key ++ ": array expected")

/-- One reason for each field that does not accept what stands under its key. -/
def reasons : Fields → Members → List String
  | .nil, _ => []
  | .scalar info kind rest, ms =>
    ((ms.present? info.key).bind (kind.reason? info.key)).toList ++ rest.reasons ms
  | .message info _ body rest, ms =>
    ((ms.present? info.key).bind (messageReason? body.reasons info.key)).toList ++ rest.reasons ms
  | .repeated info _ body rest, ms =>
    ((ms.present? info.key).bind (arrayReason? body.reasons info.key)).toList ++ rest.reasons ms

def AcceptsObject (accepts : Members → Prop) (v : Json) : Prop :=
  ∃ ms, v = .obj ms ∧ accepts ms

def AcceptsArray (accepts : Members → Prop) (v : Json) : Prop :=
  ∃ items, v = .arr items ∧ ∀ item ∈ items, AcceptsObject accepts item

def AcceptsMember (accepts : Json → Prop) (ms : Members) (key : String) : Prop :=
  ∀ v, ms.get? key = some v → v ≠ .null → accepts v

def Accepts : Fields → Members → Prop
  | .nil, _ => True
  | .scalar info kind rest, ms => AcceptsMember kind.Accepts ms info.key ∧ rest.Accepts ms
  | .message info _ body rest, ms =>
    AcceptsMember (AcceptsObject body.Accepts) ms info.key ∧ rest.Accepts ms
  | .repeated info _ body rest, ms =>
    AcceptsMember (AcceptsArray body.Accepts) ms info.key ∧ rest.Accepts ms

section

variable {verify : Members → Option Objection} {reasons : Members → List String}
  {accepts : Members → Prop}

theorem map_message_verifyObject
    (first : ∀ ms, (verify ms).map Objection.message = (reasons ms).head?) (v : Json) :
    (verifyObject verify v).map Objection.message = objectReason? reasons v := by
  cases v with
  | obj ms => exact first ms
  | _ => rfl

theorem map_message_verifyMessage
    (first : ∀ ms, (verify ms).map Objection.message = (reasons ms).head?) (key : String) (v : Json) :
    (verifyMessage verify key v).map Objection.message = messageReason? reasons key v := by
  rw [messageReason?, ← map_message_verifyObject first, verifyMessage, Option.map_map, Option.map_map]
  rfl

theorem map_message_verifyRepeated
    (first : ∀ ms, (verify ms).map Objection.message = (reasons ms).head?) (key : String) (v : Json) :
    (verifyRepeated verify key v).map Objection.message = arrayReason? reasons key v := by
  cases v with
  | arr items =>
    -- The first item with an objection is the first with a reason, as each has both or neither.
    have each : objectReason? reasons = Option.map Objection.message ∘ verifyObject verify :=
      funext fun item => (map_message_verifyObject first item).symm
    rw [arrayReason?, each, ← List.map_findSome?, verifyRepeated, Option.map_map, Option.map_map]
    rfl
  | _ =>
    have joined : key ++ ": " ++ "array" ++ " expected" = key ++ ": array expected" := by
      rw [String.append_assoc, String.append_assoc]
      rfl
    exact congrArg some joined

theorem objectReason?_eq_none_iff (refused : ∀ ms, reasons ms = [] ↔ accepts ms) {v : Json} :
    objectReason? reasons v = none ↔ AcceptsObject accepts v := by
  cases v with
  | obj ms => simp [objectReason?, AcceptsObject, refused]
  | _ => simp [objectReason?, AcceptsObject]

theorem messageReason?_eq_none_iff (refused : ∀ ms, reasons ms = [] ↔ accepts ms) {key : String}
    {v : Json} : messageReason? reasons key v = none ↔ AcceptsObject accepts v := by
  rw [messageReason?, Option.map_eq_none_iff, objectReason?_eq_none_iff refused]

theorem arrayReason?_eq_none_iff (refused : ∀ ms, reasons ms = [] ↔ accepts ms) {key : String}
    {v : Json} : arrayReason? reasons key v = none ↔ AcceptsArray accepts v := by
  cases v with
  | arr items => simp [arrayReason?, AcceptsArray, objectReason?_eq_none_iff refused]
  | _ => simp [arrayReason?, AcceptsArray]

theorem map_message_member {verify : Json → Option Objection} {reason? : Json → Option String}
    {later : Option Objection} {reasons : List String} {ms : Members} {key : String}
    (first : ∀ v, (verify v).map Objection.message = reason? v)
    (rest : later.map Objection.message = reasons.head?) :
    (((ms.present? key).bind verify).or later).map Objection.message =
      (((ms.present? key).bind reason?).toList ++ reasons).head? := by
  have here : ((ms.present? key).bind verify).map Objection.message =
      (ms.present? key).bind reason? := by
    cases ms.present? key with
    | none => rfl
    | some v => exact first v
  rw [Option.map_or, here, rest, List.head?_append, Option.head?_toList]

theorem bind_present?_eq_none_iff {reason? : Json → Option String} {accepts : Json → Prop}
    {ms : Members} {key : String} (refused : ∀ v, reason? v = none ↔ accepts v) :
    (ms.present? key).bind reason? = none ↔ AcceptsMember accepts ms key := by
  simp [Option.bind_eq_none_iff, Members.present?_eq_some_iff, refused, AcceptsMember]

end

theorem map_message_verifyMembers (fs : Fields) (ms : Members) :
    (fs.verifyMembers ms).map Objection.message = (fs.reasons ms).head? := by
  induction fs generalizing ms with
  | nil => rfl
  | scalar info kind rest ih => exact map_message_member (kind.map_message_verify info.key) (ih ms)
  | message info name body rest body_ih ih =>
    exact map_message_member (map_message_verifyMessage body_ih info.key) (ih ms)
  | repeated info name body rest body_ih ih =>
    exact map_message_member (map_message_verifyRepeated body_ih info.key) (ih ms)

theorem reasons_eq_nil_iff {fs : Fields} {ms : Members} : fs.reasons ms = [] ↔ fs.Accepts ms := by
  induction fs generalizing ms with
  | nil => simp [reasons, Accepts]
  | scalar info kind rest ih =>
    rw [reasons, Accepts, List.append_eq_nil_iff, Option.toList_eq_nil_iff, ih,
      bind_present?_eq_none_iff fun v => Scalar.reason?_eq_none_iff]
  | message info name body rest body_ih ih =>
    rw [reasons, Accepts, List.append_eq_nil_iff, Option.toList_eq_nil_iff, ih,
      bind_present?_eq_none_iff fun v => messageReason?_eq_none_iff fun _ => body_ih]
  | repeated info name body rest body_ih ih =>
    rw [reasons, Accepts, List.append_eq_nil_iff, Option.toList_eq_nil_iff, ih,
      bind_present?_eq_none_iff fun v => arrayReason?_eq_none_iff fun _ => body_ih]

end Fields

namespace Field

def reason? : Field → Json → Option String
  | .scalar info kind, v => kind.reason? info.key v
  | .message info _ body, v => Fields.messageReason? body.reasons info.key v
  | .repeated info _ body, v => Fields.arrayReason? body.reasons info.key v

def Accepts : Field → Json → Prop
  | .scalar _ kind, v => kind.Accepts v
  | .message _ _ body, v => Fields.AcceptsObject body.Accepts v
  | .repeated _ _ body, v => Fields.AcceptsArray body.Accepts v

theorem reason?_eq_none_iff {f : Field} {v : Json} : f.reason? v = none ↔ f.Accepts v := by
  cases f with
  | scalar info kind => exact Scalar.reason?_eq_none_iff
  | message info name body => exact Fields.messageReason?_eq_none_iff fun _ => Fields.reasons_eq_nil_iff
  | repeated info name body => exact Fields.arrayReason?_eq_none_iff fun _ => Fields.reasons_eq_nil_iff

end Field

namespace Fields

theorem reasons_eq_filterMap (fs : Fields) (ms : Members) :
    fs.reasons ms = fs.toList.filterMap fun f => (ms.present? f.key).bind f.reason? := by
  rw [List.filterMap_eq_flatMap_toList]
  induction fs with
  | nil => rfl
  | scalar info kind rest ih | message info name body rest _ ih | repeated info name body rest _ ih =>
    rw [reasons, ih]
    rfl

end Fields

namespace Schema

/-- The reasons are those of the declared keys that are present with a value their field does not accept,
one for each. Verification gives the first of them, and lets the object through just if there is none. -/
theorem verify_first_reason (s : Schema) (ms : Members) :
    (s.verify (.obj ms)).map Objection.message = (s.fields.reasons ms).head? ∧
    (s.verify (.obj ms) = none ↔ s.fields.reasons ms = []) ∧
    s.fields.reasons ms = s.fields.toList.filterMap (fun f => (ms.present? f.key).bind f.reason?) ∧
    (∀ key v, ms.present? key = some v ↔ ms.get? key = some v ∧ v ≠ .null) ∧
    ∀ (f : Field) (v : Json), f.reason? v = none ↔ f.Accepts v := by
  have first : (s.verify (.obj ms)).map Objection.message = (s.fields.reasons ms).head? :=
    s.fields.map_message_verifyMembers ms
  refine ⟨first, ?_, s.fields.reasons_eq_filterMap ms, fun key v => Members.present?_eq_some_iff,
    fun f v => Field.reason?_eq_none_iff⟩
  rw [← Option.map_eq_none_iff, first, List.head?_eq_none_iff]

/-- Of the items the second is the first that is refused, and `amount` is declared before them. -/
example :
    (Message.schemaOf BtcForkTxInput).fields.reasons
      [("unspents", .arr [.obj [("vout", .ofInt 1)], .obj [("vout", .str "1")], .null]),
        ("amount", .str "1.5"), ("memo", .ofInt 0), ("to", .null)] =
      ["amount: integer|Long expected", "unspents.vout: integer expected",
        "memo: string expected"] := by decide +kernel

end Schema

end WalletBridge
