import WalletBridge.Proofs.Json.Order
import WalletBridge.Proofs.Object.RoundTrip

namespace WalletBridge

open Json

namespace Json

theorem sorted_eq_null_iff {v : Json} : v.sorted = .null ↔ v = .null := by
  cases v <;> simp [sorted]

theorem truthy_sorted (v : Json) : v.sorted.truthy = v.truthy := by
  cases v <;> rfl

theorem toUInt32_sorted (v : Json) : v.sorted.toUInt32 = v.toUInt32 := by
  cases v <;> rfl

theorem isIntegerIn_sorted (low high : Int) (v : Json) :
    v.sorted.isIntegerIn low high = v.isIntegerIn low high := by
  cases v <;> rfl

theorem toInt64_sorted (v : Json) : v.sorted.toInt64 = v.toInt64 := by
  cases v with
  | obj ms =>
    simp only [sorted, toInt64, Members.get?_sorted]
    cases Members.get? ms "low" with
    | none => rfl
    | some low => cases Members.get? ms "high" <;> simp [toUInt32_sorted]
  | _ => rfl

theorem isLong_sorted (v : Json) : v.sorted.isLong = v.isLong := by
  cases v with
  | obj ms =>
    simp only [sorted, isLong, Members.get?_sorted]
    cases Members.get? ms "low" with
    | none => rfl
    | some low => cases Members.get? ms "high" <;> simp [isHalf, isIntegerIn_sorted]
  | _ => rfl

namespace Members

def declared (keys : List String) (ms : Members) : Members :=
  ms.filter fun m => keys.contains m.1

def withoutNulls (ms : Members) : Members :=
  ms.filter fun m => (ms.present? m.1).isSome

end Members

end Json

namespace Scalar

theorem ofJson_sorted (path : String) (s : Scalar) (v : Json) :
    s.ofJson path v.sorted = s.ofJson path v := by
  cases s with
  | string =>
    cases v with
    | null | str s => rfl
    | _ => exact congrArg Except.ok (compact_sorted _)
  | bool => exact congrArg Except.ok (truthy_sorted v)
  | int32 => exact congrArg (Except.ok ·.toInt32) (toUInt32_sorted v)
  | uint32 => exact congrArg Except.ok (toUInt32_sorted v)
  | int64 => exact congrArg Except.ok (toInt64_sorted v)
  | bytes =>
    cases v with
    | arr items =>
      simp only [sorted, sortedItems_eq_map, ofJson, List.map_map, Function.comp_def, toUInt32_sorted]
    | _ => rfl
  | keyType => cases v <;> rfl

theorem verify_sorted (s : Scalar) (key : String) (v : Json) :
    s.verify key v.sorted = s.verify key v := by
  have accepted : s.accepts v.sorted = s.accepts v := by
    cases s with
    | string | bool | keyType => cases v <;> rfl
    | int32 | uint32 => exact isIntegerIn_sorted ..
    | int64 => exact isLong_sorted v
    | bytes =>
      cases v with
      | arr items =>
        simp only [sorted, sortedItems_eq_map, accepts, List.all_map, Function.comp_def,
          isIntegerIn_sorted]
      | _ => rfl
  rw [verify, verify, accepted]

end Scalar

namespace Fields

def stripObject (inner : Members → Members) : Json → Json
  | .obj ms => .obj (inner ms)
  | v => v

def stripItems (inner : Members → Members) : Json → Json
  | .arr items => .arr (items.map (stripObject inner))
  | v => v

def stripMembers (keys : List String) (strip : String → Json → Json) (ms : Members) : Members :=
  (ms.declared keys).withoutNulls.map fun m => (m.1, strip m.1 m.2)

/-- What is left of the value of a key: a message loses members, alone or as an item of a list, and all
other values stay as they are. -/
def stripValue : Fields → String → Json → Json
  | .nil, _, v => v
  | .scalar info _ rest, key, v => if key = info.key then v else rest.stripValue key v
  | .message info _ body rest, key, v =>
    if key = info.key then stripObject (stripMembers body.keys body.stripValue) v
    else rest.stripValue key v
  | .repeated info _ body rest, key, v =>
    if key = info.key then stripItems (stripMembers body.keys body.stripValue) v
    else rest.stripValue key v

def strip (fs : Fields) : Members → Members :=
  stripMembers fs.keys fs.stripValue

end Fields

/-- The value without members that are not declared or null, of the object itself and of the messages
in it. -/
def Schema.strip (s : Schema) : Json → Json :=
  Fields.stripObject s.fields.strip

namespace Json.Members

theorem get?_withoutNulls (ms : Members) (key : String) :
    ms.withoutNulls.get? key = ms.present? key := by
  rw [withoutNulls, get?_filter fun key => (ms.present? key).isSome]
  cases present : ms.present? key with
  | none => rfl
  | some v => exact (present?_eq_some_iff.mp present).1

theorem present?_declared {keys : List String} {key : String} (known : key ∈ keys) (ms : Members) :
    (ms.declared keys).present? key = ms.present? key := by
  apply present?_congr
  rw [declared, get?_filter keys.contains, if_pos (List.contains_iff_mem.mpr known)]

/-- Changing values, but none to null or from null. -/
theorem present?_of_get? {ms others : Members} {key : String} {f : Json → Json}
    (mapped : others.get? key = (ms.present? key).map f) (null_iff : ∀ v, f v = .null ↔ v = .null) :
    others.present? key = (ms.present? key).map f := by
  cases present : ms.present? key with
  | none =>
    rw [present] at mapped
    exact present?_of_absent mapped
  | some v =>
    rw [present] at mapped
    have nonnull := (present?_eq_some_iff.mp present).2
    exact present?_eq_some_iff.mpr ⟨mapped, fun null => nonnull ((null_iff v).mp null)⟩

end Json.Members

namespace Fields

theorem stripObject_eq_null_iff {inner : Members → Members} {v : Json} :
    stripObject inner v = .null ↔ v = .null := by
  cases v <;> simp [stripObject]

theorem stripItems_eq_null_iff {inner : Members → Members} {v : Json} :
    stripItems inner v = .null ↔ v = .null := by
  cases v <;> simp [stripItems]

theorem stripValue_eq_null_iff {fs : Fields} {key : String} {v : Json} :
    fs.stripValue key v = .null ↔ v = .null := by
  induction fs with
  | nil => exact Iff.rfl
  | scalar info kind rest ih =>
    rw [stripValue]
    split
    · exact Iff.rfl
    · exact ih
  | message info name body rest _ ih =>
    rw [stripValue]
    split
    · exact stripObject_eq_null_iff
    · exact ih
  | repeated info name body rest _ ih =>
    rw [stripValue]
    split
    · exact stripItems_eq_null_iff
    · exact ih

/-- What is left is there under the declared keys that are not null. -/
theorem get?_strip {fs : Fields} {key : String} (known : key ∈ fs.keys) (ms : Members) :
    (fs.strip ms).get? key = (ms.present? key).map (fs.stripValue key) := by
  rw [strip, stripMembers, Members.get?_map, Members.get?_withoutNulls, Members.present?_declared known]

def plain (fs : Fields) (ms : Members) : Members :=
  sortMembers (sortedMembers (fs.strip ms))

theorem present?_plain {fs : Fields} {key : String} (known : key ∈ fs.keys) (ms : Members) :
    (fs.plain ms).present? key = (ms.present? key).map fun v => (fs.stripValue key v).sorted := by
  apply Members.present?_of_get?
  · rw [plain, Members.get?_sorted, get?_strip known, Option.map_map]
    rfl
  · exact fun v => sorted_eq_null_iff.trans stripValue_eq_null_iff

section

variable {α : Type} {strip : Members → Members}

theorem verifyObject_plain {verify : Members → Option Objection}
    (alike : ∀ ms, verify (sortMembers (sortedMembers (strip ms))) = verify ms) (v : Json) :
    verifyObject verify (stripObject strip v).sorted = verifyObject verify v := by
  cases v with
  | obj ms => exact alike ms
  | _ => rfl

theorem readObject_plain {read : Members → Except ObjectError α}
    (alike : ∀ ms, read (sortMembers (sortedMembers (strip ms))) = read ms) (path : String) (v : Json) :
    readObject read path (stripObject strip v).sorted = readObject read path v := by
  cases v with
  | obj ms => exact alike ms
  | _ => rfl

theorem sorted_stripItems (items : List Json) :
    (stripItems strip (.arr items)).sorted = .arr (items.map fun v => (stripObject strip v).sorted) := by
  rw [stripItems, sorted, sortedItems_eq_map, List.map_map]
  rfl

theorem verifyRepeated_plain {verify : Members → Option Objection}
    (alike : ∀ ms, verify (sortMembers (sortedMembers (strip ms))) = verify ms) (key : String)
    (v : Json) : verifyRepeated verify key (stripItems strip v).sorted = verifyRepeated verify key v := by
  cases v with
  | arr items =>
    rw [sorted_stripItems, verifyRepeated, verifyRepeated, List.findSome?_map]
    simp only [Function.comp_def, verifyObject_plain alike]
  | _ => rfl

theorem readRepeated_plain {read : Members → Except ObjectError α}
    (alike : ∀ ms, read (sortMembers (sortedMembers (strip ms))) = read ms) (path : String) (v : Json) :
    readRepeated read path (stripItems strip v).sorted = readRepeated read path v := by
  cases v with
  | arr items =>
    rw [sorted_stripItems, readRepeated, readRepeated, List.mapM_map]
    simp only [Function.comp_def, readObject_plain alike]
  | _ => rfl

end

/-- Under the declared keys the others have what is left of these values, and nothing where these have
nothing. -/
def Reduces (fs : Fields) (ms others : Members) : Prop :=
  ∀ key ∈ fs.keys, others.present? key =
    (ms.present? key).map fun v => (fs.stripValue key v).sorted

theorem reduces_plain (fs : Fields) (ms : Members) : fs.Reduces ms (fs.plain ms) :=
  fun _ known => present?_plain known ms

theorem Reduces.first_later {fs rest : Fields} {info : FieldInfo} {reduce : Json → Json}
    {ms others : Members} (reduces : fs.Reduces ms others) (fresh : info.Fresh rest)
    (keys : fs.keys = info.key :: rest.keys)
    (values : ∀ key v, fs.stripValue key v =
      if key = info.key then reduce v else rest.stripValue key v) :
    (others.present? info.key = (ms.present? info.key).map fun v => (reduce v).sorted) ∧
      rest.Reduces ms others := by
  constructor
  · rw [reduces info.key (keys ▸ List.mem_cons_self ..)]
    simp only [values, if_true]
  · intro key known
    have different : key ≠ info.key := fun same => fresh.key_fresh (same ▸ known)
    rw [reduces key (keys ▸ List.mem_cons_of_mem _ known)]
    simp only [values, if_neg different]

theorem verify_or_congr {present present' : Option Json} {reduce : Json → Json}
    {verify : Json → Option Objection} {later later' : Option Objection}
    (first : present' = present.map reduce) (alike : ∀ v, verify (reduce v) = verify v)
    (rest : later' = later) : (present'.bind verify).or later' = (present.bind verify).or later := by
  rw [first, rest, Option.bind_map]
  simp only [Function.comp_def, alike]

theorem readMember_congr {α : Type} {present present' : Option Json} {reduce : Json → Json} {zero : α}
    {read : Json → Except ObjectError α} (first : present' = present.map reduce)
    (alike : ∀ v, read (reduce v) = read v) :
    readMember zero read present' = readMember zero read present := by
  rw [first]
  cases present with
  | none => rfl
  | some v => exact alike v

theorem alike_of_reduces {fs : Fields} (wf : fs.WellFormed) {ms others : Members}
    (reduces : fs.Reduces ms others) :
    fs.verifyMembers others = fs.verifyMembers ms ∧
      ∀ owner, fs.ofMembers owner others = fs.ofMembers owner ms := by
  induction fs generalizing ms others with
  | nil => exact ⟨rfl, fun _ => rfl⟩
  | scalar info kind rest ih =>
    obtain ⟨fresh, wf⟩ := wf
    obtain ⟨first, later⟩ := reduces.first_later fresh rfl fun _ _ => rfl
    obtain ⟨verified, read⟩ := ih wf later
    refine ⟨verify_or_congr first (kind.verify_sorted info.key) verified, fun owner => ?_⟩
    rw [ofMembers, ofMembers, read owner, readMember_congr first (kind.ofJson_sorted _)]
  | message info name body rest body_ih ih =>
    obtain ⟨fresh, body_wf, wf⟩ := wf
    obtain ⟨first, later⟩ := reduces.first_later fresh rfl fun _ _ => rfl
    obtain ⟨verified, read⟩ := ih wf later
    have inner (ms : Members) := body_ih body_wf (body.reduces_plain ms)
    refine ⟨verify_or_congr first ?_ verified, fun owner => ?_⟩
    · exact fun v => congrArg (Option.map _) (verifyObject_plain (fun ms => (inner ms).1) v)
    · have alike (v : Json) := readObject_plain (fun ms => (inner ms).2 name)
        (owner.full ++ "." ++ info.key) v
      rw [ofMembers, ofMembers, read owner,
        readMember_congr first fun v => congrArg (Except.map some) (alike v)]
  | repeated info name body rest body_ih ih =>
    obtain ⟨fresh, body_wf, wf⟩ := wf
    obtain ⟨first, later⟩ := reduces.first_later fresh rfl fun _ _ => rfl
    obtain ⟨verified, read⟩ := ih wf later
    have inner (ms : Members) := body_ih body_wf (body.reduces_plain ms)
    refine ⟨verify_or_congr first ?_ verified, fun owner => ?_⟩
    · exact verifyRepeated_plain (fun ms => (inner ms).1) info.key
    · rw [ofMembers, ofMembers, read owner,
        readMember_congr first (readRepeated_plain (fun ms => (inner ms).2 name) _)]

end Fields

namespace Schema

theorem verify_strip_sorted {s : Schema} (wf : s.fields.WellFormed) (v : Json) :
    s.verify (s.strip v).sorted = s.verify v :=
  Fields.verifyObject_plain (fun ms => (Fields.alike_of_reduces wf (s.fields.reduces_plain ms)).1) v

theorem readObject_strip_sorted {s : Schema} (wf : s.fields.WellFormed) (v : Json) :
    s.readObject (s.strip v).sorted = s.readObject v := by
  have read : s.ofObject (s.strip v).sorted = s.ofObject v :=
    Fields.readObject_plain
      (fun ms => (Fields.alike_of_reduces wf (s.fields.reduces_plain ms)).2 s.name) _ v
  rw [readObject, readObject, read]

/-- Values that are the same but for the order of members, once the members that are not declared and
those that are null are gone from the object and the messages in it, are verified and read alike. So
whatever stands under foreign keys, and wherever it stands, makes no difference. -/
theorem foreign_ignored {s : Schema} (known : s ∈ Catalog.all) :
    (∀ v w : Json, (s.strip v).sorted = (s.strip w).sorted →
      s.verify v = s.verify w ∧ s.readObject v = s.readObject w) ∧
    ∀ ms others : Members, ms.declared s.fields.keys = others.declared s.fields.keys →
      s.verify (.obj ms) = s.verify (.obj others) ∧
        s.readObject (.obj ms) = s.readObject (.obj others) := by
  have wf := (Catalog.wellFormed known).fields
  have alike (v w : Json) (same : (s.strip v).sorted = (s.strip w).sorted) :
      s.verify v = s.verify w ∧ s.readObject v = s.readObject w := by
    constructor
    · rw [← verify_strip_sorted wf v, same, verify_strip_sorted wf w]
    · rw [← readObject_strip_sorted wf v, same, readObject_strip_sorted wf w]
  refine ⟨alike, fun ms others same => alike _ _ ?_⟩
  have left : s.strip (.obj ms) = s.strip (.obj others) := by
    simp only [strip, Fields.stripObject, Fields.strip, Fields.stripMembers, same]
  rw [left]

def crowdedAction : Json :=
  .obj [("z", .null), ("param", .obj [("value", .null), ("method", .arr []), ("type_url", .str "a")]),
    ("method", .obj [("low", .ofInt 1), ("high", .null)])]

def bareAction : Json :=
  .obj [("method", .obj [("high", .null), ("low", .ofInt 1)]), ("param", .obj [("type_url", .str "a")])]

theorem foreign_ignored_crowdedAction :
    let s := Message.schemaOf Action
    let more : Members := [("Method", .null), ("method", .str "sign_tx"), ("extra", crowdedAction)]
    s ∈ Catalog.all ∧ (s.strip crowdedAction).sorted = (s.strip bareAction).sorted ∧
    s.verify crowdedAction = s.verify bareAction ∧
    s.readObject crowdedAction = s.readObject bareAction ∧
    (s.readObject bareAction).toOption.map Message.ofRecord =
      some ({ method := "\x7b\"high\":null,\"low\":1\x7d", param := some { typeUrl := "a" } } : Action) ∧
    more.declared s.fields.keys = Members.declared s.fields.keys [("method", .str "sign_tx")] ∧
    s.readObject (.obj more) = s.readObject (.obj [("method", .str "sign_tx")]) := by
  intro s more
  have known : s ∈ Catalog.all := by decide +kernel
  have bare : s.strip bareAction = bareAction := by rfl
  have crowded : s.strip crowdedAction =
      .obj [("param", .obj [("type_url", .str "a")]),
        ("method", .obj [("low", .ofInt 1), ("high", .null)])] := by rfl
  have same : (s.strip crowdedAction).sorted = (s.strip bareAction).sorted := by
    rw [bare, crowded]
    simp [bareAction, sorted, sortedMembers, sortMembers, insertMember]
  have kept : more.declared s.fields.keys =
      Members.declared s.fields.keys [("method", .str "sign_tx")] := by rfl
  have read : (s.readObject bareAction).toOption.map Message.ofRecord =
      some ({ method := "\x7b\"high\":null,\"low\":1\x7d", param := some { typeUrl := "a" } } : Action) := by
    decide +kernel
  obtain ⟨alike, only_declared⟩ := foreign_ignored known
  obtain ⟨verified, read_alike⟩ := alike crowdedAction bareAction same
  exact ⟨known, same, verified, read_alike, read, kept, (only_declared _ _ kept).2⟩

end Schema

end WalletBridge
