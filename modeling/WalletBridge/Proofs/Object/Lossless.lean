import WalletBridge.Proofs.Number.Rounding
import WalletBridge.Proofs.Object.Rendering

namespace WalletBridge

open Json

namespace Json

inductive Step
  | key (key : String)
  | item (index : Nat)
  deriving DecidableEq, Repr

inductive Child : Json → Step → Json → Prop
  | member {ms : Members} {key : String} {v : Json} (member : (key, v) ∈ ms) :
      Child (.obj ms) (.key key) v
  | item {items : List Json} {i : Nat} {v : Json} (item : items[i]? = some v) :
      Child (.arr items) (.item i) v

/-- The second value stands in the first, at the end of the path. -/
inductive At : Json → List Step → Json → Prop
  | here (v : Json) : v.At [] v
  | inside {u v w : Json} {step : Step} {path : List Step} (child : u.Child step v)
      (later : v.At path w) : u.At (step :: path) w

theorem at_nil_iff {v w : Json} : v.At [] w ↔ v = w := by
  constructor
  · intro stands
    cases stands with
    | here => rfl
  · rintro rfl
    exact .here v

theorem at_cons_iff {u w : Json} {step : Step} {path : List Step} :
    u.At (step :: path) w ↔ ∃ v, u.Child step v ∧ v.At path w := by
  constructor
  · intro stands
    cases stands with
    | inside child later => exact ⟨_, child, later⟩
  · rintro ⟨v, child, later⟩
    exact .inside child later

namespace Number

def IsWord (n : Number) : Prop :=
  ∃ k : Int, n = .int k ∧ -0x80000000 ≤ k ∧ k ≤ 0xffffffff

/-- Read as a double, the number's text has the same value. -/
def FitsDouble (n : Number) : Prop :=
  ∃ x : Binary64, Extended.read? n.toText.toList = some (.finite x) ∧ x.value = n.value

theorem fitsDouble_of_small {k : Int} (small : k.natAbs < 1 <<< 53) : (Number.int k).FitsDouble := by
  obtain ⟨negative, decimal, sign⟩ := Numeral.exists_decimal_of_spells (Numeral.spells_toString k)
  obtain ⟨x, found, value⟩ := Binary64.ofDecimal?_of_small small negative
  refine ⟨x, ?_, value.trans (congrArg Int.cast sign)⟩
  simp only [toText, Extended.read?, decimal, found]

theorem IsWord.fitsDouble {n : Number} (word : n.IsWord) : n.FitsDouble := by
  obtain ⟨k, rfl, low, high⟩ := word
  have small : k.natAbs < 0x20000000000000 := by omega
  exact fitsDouble_of_small small

end Number

inductive IsFlat : Json → Prop
  | text (s : String) : IsFlat (.str s)
  | bool (b : Bool) : IsFlat (.bool b)
  | word {n : Number} (word : n.IsWord) : IsFlat (.num n)

theorem IsFlat.not_child {v w : Json} (flat : v.IsFlat) {step : Step} : ¬ v.Child step w := by
  intro child
  cases child <;> cases flat

end Json

inductive Part
  | scalar (kind : Scalar) (v : kind.Value)
  | message (fs : Fields) (m : fs.Record)
  | repeated (fs : Fields) (ms : List fs.Record)

/-- What the field with the key holds. A message that is absent is no part. -/
def Fields.part? : (fs : Fields) → fs.Record → String → Option Part
  | .nil, _, _ => none
  | .scalar info kind rest, (v, r), key =>
    if key = info.key then some (.scalar kind v) else rest.part? r key
  | .message info _ body rest, (m, r), key =>
    if key = info.key then m.map (Part.message body) else rest.part? r key
  | .repeated info _ body rest, (ms, r), key =>
    if key = info.key then some (.repeated body ms) else rest.part? r key

namespace Part

def child? : Part → Step → Option Part
  | .message fs m, .key key => fs.part? m key
  | .repeated fs ms, .item i => ms[i]?.map (message fs)
  | _, _ => none

def at? (p : Part) : List Step → Option Part
  | [] => some p
  | step :: path => (p.child? step).bind (·.at? path)

def toJson? : Part → Option Json
  | .scalar kind v => kind.render? .json v
  | .message fs m => some (.obj (fs.toMembers .json m))
  | .repeated fs ms => Fields.renderRepeated? .json (fs.toMembers .json) ms

def WellFormed : Part → Prop
  | .scalar _ _ => True
  | .message fs _ | .repeated fs _ => fs.WellFormed

end Part

def Schema.at? (s : Schema) (r : s.Record) (path : List Step) : Option Part :=
  (Part.message s.fields r).at? path

namespace Scalar

theorem isFlat_toJson (kind : Scalar) (v : kind.Value) : (kind.toJson .json v).IsFlat := by
  have signed (v : Int32) : (ofInt v.toInt).IsFlat := by
    have low := v.le_toInt
    have high := v.toInt_lt
    exact .word ⟨_, rfl, low, by omega⟩
  cases kind with
  | string | int64 | bytes => exact .text _
  | bool => exact .bool _
  | int32 => exact signed v
  | uint32 =>
    have high := UInt32.toNat_lt v
    exact .word ⟨_, rfl, by omega, by omega⟩
  | keyType =>
    rw [toJson]
    cases KeyType.ofNumber? v with
    | none => exact signed v
    | some k => exact .text _

theorem render?_json_eq_some_iff {kind : Scalar} {v : kind.Value} {w : Json} :
    kind.render? .json v = some w ↔ v ≠ kind.zero ∧ w = kind.toJson .json v := by
  have hidden : RenderOptions.json.defaults = false := rfl
  rw [render?_eq, hidden]
  by_cases zero : v = kind.zero <;> simp [zero, eq_comm]

theorem isFlat_of_render? {kind : Scalar} {v : kind.Value} {w : Json}
    (form : kind.render? .json v = some w) : w.IsFlat := by
  obtain ⟨_, rfl⟩ := render?_json_eq_some_iff.mp form
  exact kind.isFlat_toJson v

end Scalar

namespace Fields

theorem part?_of_not_mem {fs : Fields} {key : String} (undeclared : key ∉ fs.keys) (r : fs.Record) :
    fs.part? r key = none := by
  induction fs with
  | nil => rfl
  | scalar info kind rest ih | message info _ body rest _ ih | repeated info _ body rest _ ih =>
    obtain ⟨v, r⟩ := r
    obtain ⟨different, undeclared⟩ := not_or.mp fun either => undeclared (List.mem_cons.mpr either)
    rw [part?, if_neg different]
    exact ih undeclared r

theorem wellFormed_part? {fs : Fields} (wf : fs.WellFormed) {r : fs.Record} {key : String} {p : Part}
    (found : fs.part? r key = some p) : p.WellFormed := by
  induction fs with
  | nil => cases found
  | scalar info kind rest ih =>
    obtain ⟨v, r⟩ := r
    rw [part?] at found
    split at found
    · cases found
      trivial
    · exact ih wf.2 found
  | message info name body rest _ ih =>
    obtain ⟨m, r⟩ := r
    rw [part?] at found
    split at found
    · obtain ⟨a, _, rfl⟩ := Option.map_eq_some_iff.mp found
      exact wf.2.1
    · exact ih wf.2.2 found
  | repeated info name body rest _ ih =>
    obtain ⟨ms, r⟩ := r
    rw [part?] at found
    split at found
    · cases found
      exact wf.2.1
    · exact ih wf.2.2 found

theorem mem_member_iff {key other : String} {v : Option Json} {w : Json} :
    (other, w) ∈ member key v ↔ other = key ∧ v = some w := by
  cases v <;> simp [member, eq_comm]

/-- The first field's key is not among the later ones, so its members are those of the first part. -/
theorem mem_first_later_iff {info : FieldInfo} {rest : Fields} (fresh : info.Fresh rest)
    (first : Option Part) {r : rest.Record} {key : String} {v : Json}
    (later : (key, v) ∈ rest.toMembers .json r ↔
      ∃ p, rest.part? r key = some p ∧ p.toJson? = some v) :
    (key, v) ∈ member info.key (first.bind Part.toJson?) ++ rest.toMembers .json r ↔
      ∃ p, (if key = info.key then first else rest.part? r key) = some p ∧ p.toJson? = some v := by
  rw [List.mem_append, mem_member_iff, later]
  by_cases same : key = info.key
  · subst same
    simp [part?_of_not_mem fresh.key_fresh, Option.bind_eq_some_iff]
  · simp [same]

theorem mem_toMembers_iff {fs : Fields} (wf : fs.WellFormed) {r : fs.Record} {key : String}
    {v : Json} :
    (key, v) ∈ fs.toMembers .json r ↔ ∃ p, fs.part? r key = some p ∧ p.toJson? = some v := by
  induction fs with
  | nil => simp [toMembers, part?]
  | scalar info kind rest ih =>
    obtain ⟨x, r⟩ := r
    exact mem_first_later_iff wf.1 (some (.scalar kind x)) (ih wf.2)
  | message info name body rest _ ih =>
    obtain ⟨m, r⟩ := r
    have form : renderMessage? .json (body.toMembers .json) m =
        (m.map (Part.message body)).bind Part.toJson? := by
      cases m <;> rfl
    rw [toMembers, form]
    exact mem_first_later_iff wf.1 (m.map (Part.message body)) (ih wf.2.2)
  | repeated info name body rest _ ih =>
    obtain ⟨ms, r⟩ := r
    exact mem_first_later_iff wf.1 (some (.repeated body ms)) (ih wf.2.2)

end Fields

namespace Part

theorem wellFormed_child? {p q : Part} (wf : p.WellFormed) {step : Step}
    (found : p.child? step = some q) : q.WellFormed := by
  cases p with
  | scalar kind v => cases found
  | message fs m =>
    cases step with
    | key key => exact Fields.wellFormed_part? wf found
    | item i => cases found
  | repeated fs ms =>
    cases step with
    | key key => cases found
    | item i =>
      obtain ⟨m, _, rfl⟩ := Option.map_eq_some_iff.mp found
      exact wf

theorem toJson?_repeated_eq_some_iff {fs : Fields} {ms : List fs.Record} {w : Json} :
    (repeated fs ms).toJson? = some w ↔
      ms ≠ [] ∧ w = .arr (ms.map fun m => .obj (fs.toMembers .json m)) := by
  cases ms <;> simp [toJson?, Fields.renderRepeated?, RenderOptions.json, eq_comm]

/-- What is one step inside the JSON form is the JSON form of what is one step inside the part. -/
theorem child_toJson?_iff {p : Part} (wf : p.WellFormed) {step : Step} {w : Json} :
    (∃ v, p.toJson? = some v ∧ v.Child step w) ↔
      ∃ q, p.child? step = some q ∧ q.toJson? = some w := by
  constructor
  · rintro ⟨v, form, child⟩
    cases p with
    | scalar kind x => exact absurd child (Scalar.isFlat_of_render? form).not_child
    | message fs m =>
      cases form
      cases child with
      | member member => exact (Fields.mem_toMembers_iff wf).mp member
    | repeated fs ms =>
      obtain ⟨_, rfl⟩ := toJson?_repeated_eq_some_iff.mp form
      cases child with
      | item item =>
        rw [List.getElem?_map] at item
        obtain ⟨m, there, rfl⟩ := Option.map_eq_some_iff.mp item
        exact ⟨message fs m, congrArg (Option.map (message fs)) there, rfl⟩
  · rintro ⟨q, found, form⟩
    cases p with
    | scalar kind x => cases found
    | message fs m =>
      cases step with
      | key key => exact ⟨_, rfl, .member ((Fields.mem_toMembers_iff wf).mpr ⟨q, found, form⟩)⟩
      | item i => cases found
    | repeated fs ms =>
      cases step with
      | key key => cases found
      | item i =>
        obtain ⟨m, there, rfl⟩ := Option.map_eq_some_iff.mp found
        cases form
        have nonempty : ms ≠ [] := by
          rintro rfl
          cases there
        refine ⟨_, toJson?_repeated_eq_some_iff.mpr ⟨nonempty, rfl⟩, .item ?_⟩
        rw [List.getElem?_map, there]
        rfl

/-- Whatever stands in the JSON form of a part is the JSON form of what the part has there. Inside a part
that is left out nothing has a form. -/
theorem at_toJson?_iff {p : Part} (wf : p.WellFormed) {path : List Step} {w : Json} :
    (∃ v, p.toJson? = some v ∧ v.At path w) ↔ ∃ q, p.at? path = some q ∧ q.toJson? = some w := by
  induction path generalizing p with
  | nil => simp [at?, at_nil_iff]
  | cons step path ih =>
    constructor
    · rintro ⟨u, form, stands⟩
      obtain ⟨v, child, later⟩ := at_cons_iff.mp stands
      obtain ⟨q, found, inner⟩ := (child_toJson?_iff wf).mp ⟨u, form, child⟩
      obtain ⟨last, there, form⟩ := (ih (wellFormed_child? wf found)).mp ⟨v, inner, later⟩
      exact ⟨last, Option.bind_eq_some_iff.mpr ⟨q, found, there⟩, form⟩
    · rintro ⟨last, there, form⟩
      obtain ⟨q, found, there⟩ := Option.bind_eq_some_iff.mp there
      obtain ⟨v, inner, later⟩ := (ih (wellFormed_child? wf found)).mpr ⟨last, there, form⟩
      obtain ⟨u, form, child⟩ := (child_toJson?_iff wf).mpr ⟨q, found, inner⟩
      exact ⟨u, form, .inside child later⟩

theorem isWord_of_toJson? {p : Part} {n : Number} (form : p.toJson? = some (.num n)) : n.IsWord := by
  cases p with
  | scalar kind v =>
    cases Scalar.isFlat_of_render? form with
    | word word => exact word
  | message fs m => cases form
  | repeated fs ms =>
    obtain ⟨_, ⟨⟩⟩ := toJson?_repeated_eq_some_iff.mp form

/-- Of all parts only messages become objects. -/
theorem message_of_toJson? {p : Part} {ms : Members} (form : p.toJson? = some (.obj ms)) :
    ∃ fs m, p = message fs m ∧ ms = fs.toMembers .json m := by
  cases p with
  | scalar kind v => cases Scalar.isFlat_of_render? form
  | message fs m =>
    cases form
    exact ⟨fs, m, rfl, rfl⟩
  | repeated fs as =>
    obtain ⟨_, ⟨⟩⟩ := toJson?_repeated_eq_some_iff.mp form

end Part

namespace Schema

variable {s : Schema}

theorem at_toJson_iff (wf : s.fields.WellFormed) {r : s.Record} {path : List Step} {w : Json} :
    (s.toJson r).At path w ↔ ∃ p, s.at? r path = some p ∧ p.toJson? = some w := by
  have form : (Part.message s.fields r).toJson? = some (s.toJson r) := rfl
  have whole : (Part.message s.fields r).WellFormed := wf
  rw [Schema.at?, ← Part.at_toJson?_iff whole, form]
  simp

theorem at_toJson_scalar_iff (wf : s.fields.WellFormed) {r : s.Record} {path : List Step}
    {kind : Scalar} {v : kind.Value} (there : s.at? r path = some (.scalar kind v)) {w : Json} :
    (s.toJson r).At path w ↔ v ≠ kind.zero ∧ w = kind.toJson .json v := by
  rw [at_toJson_iff wf, there]
  simp [Part.toJson?, Scalar.render?_json_eq_some_iff]

/-- Every number in the JSON form, however deep, is an integer of 32 bits and thus a double. Long
integers are their decimal numerals and bytes are text, where they are not left out as zero. An object
stands only where the message has a message, and its keys are declared there. -/
theorem json_fits_doubles (known : s ∈ Catalog.all) (r : s.Record) :
    (∀ path n, (s.toJson r).At path (.num n) → n.IsWord ∧ n.FitsDouble) ∧
    (∀ path (x : Int64), s.at? r path = some (.scalar .int64 x) →
      (∀ w, (s.toJson r).At path w ↔ x ≠ 0 ∧ w = .str (toString x.toInt)) ∧
      Numeral.integer? (toString x.toInt).toList = some x.toInt) ∧
    (∀ path (b : Bytes), s.at? r path = some (.scalar .bytes b) →
      ∀ w, (s.toJson r).At path w ↔ b ≠ [] ∧ w = .str (Base64.encode b)) ∧
    ∀ path ms, (s.toJson r).At path (.obj ms) →
      ∃ fs m, s.at? r path = some (.message fs m) ∧ ∀ key ∈ ms.map Prod.fst, key ∈ fs.keys := by
  have wf := (Catalog.wellFormed known).fields
  refine ⟨?_, ?_, ?_, ?_⟩
  · intro path n stands
    obtain ⟨p, _, form⟩ := (at_toJson_iff wf).mp stands
    have word := Part.isWord_of_toJson? form
    exact ⟨word, word.fitsDouble⟩
  · intro path x there
    exact ⟨fun w => at_toJson_scalar_iff wf there,
      Numeral.integer?_of_spells (Numeral.spells_toString x.toInt)⟩
  · intro path b there w
    exact at_toJson_scalar_iff wf there
  · intro path ms stands
    obtain ⟨p, there, form⟩ := (at_toJson_iff wf).mp stands
    obtain ⟨fs, m, rfl, rfl⟩ := Part.message_of_toJson? form
    exact ⟨fs, m, there, fun key => (fs.keys_toMembers_sublist .json m).mem⟩

/-- The amount lies between two doubles, so as a number it would be read as another one. -/
def unevenAmount : BtcForkTxInput where
  amount := 0x20000000000001
  unspents := [{}, { vout := -0x80000000, amount := -1 }]
  changeIdx := 0xffffffff

theorem json_fits_doubles_unevenAmount :
    let s := Message.schemaOf BtcForkTxInput
    let r : s.Record := Message.toRecord unevenAmount
    let vout : List Step := [.key "unspents", .item 1, .key "vout"]
    s ∈ Catalog.all ∧
    s.toJson r = .obj [("amount", .str "9007199254740993"),
      ("unspents", .arr [.obj [], .obj [("vout", ofInt (-0x80000000)), ("amount", .str "-1")]]),
      ("changeIdx", ofInt 0xffffffff)] ∧
    (s.toJson r).At vout (ofInt (-0x80000000)) ∧ (Number.int (-0x80000000)).FitsDouble ∧
    s.at? r [.key "amount"] = some (.scalar .int64 (0x20000000000001 : Int64)) ∧
    (s.toJson r).At [.key "amount"] (.str "9007199254740993") ∧
    Numeral.integer? "9007199254740993".toList = some 0x20000000000001 ∧
    ¬ (Number.int 0x20000000000001).FitsDouble := by
  intro s r vout
  have known : s ∈ Catalog.all := by decide +kernel
  have index : s.at? r vout = some (.scalar .int32 (-0x80000000 : Int32)) := rfl
  have amount : s.at? r [.key "amount"] = some (.scalar .int64 (0x20000000000001 : Int64)) := rfl
  obtain ⟨numbers, longs, _, _⟩ := json_fits_doubles known r
  have nonzero : (-0x80000000 : Int32) ≠ 0 := by decide
  have stands : (s.toJson r).At vout (ofInt (-0x80000000)) :=
    (at_toJson_scalar_iff (Catalog.wellFormed known).fields index).mpr ⟨nonzero, rfl⟩
  obtain ⟨text, read⟩ := longs _ _ amount
  refine ⟨known, rfl, stands, (numbers _ _ stands).2, amount, (text _).mpr ⟨by decide, rfl⟩, read, ?_⟩
  rintro ⟨x, other, value⟩
  have even : Extended.read? "9007199254740993".toList =
      some (.finite ⟨false, 1 <<< 52, 1075, by decide, by decide, by decide⟩) := by decide +kernel
  cases even.symm.trans other
  exact absurd (Binary64.integer?_eq_some_iff.mpr value) (by decide +kernel)

end Schema

end WalletBridge
