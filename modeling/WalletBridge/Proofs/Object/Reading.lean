import Mathlib.Data.List.Forall2
import WalletBridge.Object.Verify
import WalletBridge.Schema.Codec
import WalletBridge.Message.Bitcoin
import WalletBridge.Proofs.Number.Value
import WalletBridge.Proofs.Number.Word
import WalletBridge.Proofs.Result
import WalletBridge.Proofs.Text.Base64
import WalletBridge.Proofs.Text.Numeral

namespace WalletBridge

open Json

namespace Json

/-- A number of that value, written as an integer or not. -/
def IsNumber (v : Json) (q : Rat) : Prop :=
  ∃ n, v = .num n ∧ n.value = q

structure IsHalf (v : Json) (n : Int) : Prop where
  number : v.IsNumber n
  low : -0x80000000 ≤ n
  high : n < 0x100000000

/-- The three forms of a long integer. The halves join in two's complement: the upper one carries the
sign, the lower one counts without. -/
inductive MeansLong : Json → Int64 → Prop
  | number {v : Json} {x : Int64} (number : v.IsNumber x.toInt) : MeansLong v x
  | text {s : String} {x : Int64} (spells : Spells s x.toInt) : MeansLong (.str s) x
  | halves {ms : Members} {low high : Json} {a b : Int} {x : Int64}
      (lower : ms.get? "low" = some low) (upper : ms.get? "high" = some high)
      (low_half : low.IsHalf a) (high_half : high.IsHalf b)
      (joined : x.toInt = b.bmod 0x100000000 * 0x100000000 + a % 0x100000000) : MeansLong (.obj ms) x

inductive MeansBytes : Json → Bytes → Prop
  | text {s : String} {x : Bytes} (spells : Base64.Spells s.toList x) : MeansBytes (.str s) x
  | octets {items : List Json} {x : Bytes}
      (each : List.Forall₂ (fun item b => item.IsNumber (b.toNat : Int)) items x) :
      MeansBytes (.arr items) x

inductive MeansKeyType : Json → Int32 → Prop
  | name (k : KeyType) : MeansKeyType (.str k.name) k.number
  | number {v : Json} (k : KeyType) (number : v.IsNumber k.number.toInt) : MeansKeyType v k.number

def MeansObject {α : Type} (means : Members → α → Prop) (v : Json) (a : α) : Prop :=
  ∃ ms, v = .obj ms ∧ means ms a

def MeansMember {α : Type} (zero : α) (means : Json → α → Prop) : Option Json → α → Prop
  | none, a | some .null, a => a = zero
  | some v, a => means v a

end Json

def Scalar.Means : (s : Scalar) → Json → s.Value → Prop
  | .string, v, x => v = .str x
  | .bool, v, x => v = .bool x
  | .int32, v, x => v.IsNumber (Int32.toInt x)
  | .uint32, v, x => v.IsNumber (UInt32.toNat x : Int)
  | .int64, v, x => v.MeansLong x
  | .bytes, v, x => v.MeansBytes x
  | .keyType, v, x => v.MeansKeyType x

def Fields.Means : (fs : Fields) → Members → fs.Record → Prop
  | .nil, _, _ => True
  | .scalar info kind rest, ms, (x, r) =>
    MeansMember kind.zero kind.Means (ms.get? info.key) x ∧ rest.Means ms r
  | .message info _ body rest, ms, (m, r) =>
    MeansMember none (fun v m => ∃ a, m = some a ∧ MeansObject body.Means v a) (ms.get? info.key) m ∧
      rest.Means ms r
  | .repeated info _ body rest, ms, (as, r) =>
    MeansMember [] (fun v as => ∃ items, v = .arr items ∧ List.Forall₂ (MeansObject body.Means) items as)
      (ms.get? info.key) as ∧ rest.Means ms r

def Schema.Means (s : Schema) (v : Json) (r : s.Record) : Prop :=
  MeansObject s.fields.Means v r

/-- Verification and reading follow what is meant: what means nothing is not let through, and what means
something is let through and read as just that. -/
structure Exact {ι α : Type} (verify : ι → Option Objection) (read : ι → Except ObjectError α)
    (means : ι → α → Prop) : Prop where
  meant : ∀ {v}, verify v = none → ∃ a, means v a
  verified : ∀ {v a}, means v a → verify v = none
  read : ∀ {v a}, means v a → read v = .ok a

namespace Exact

variable {ι α β : Type}

theorem object {verify : Members → Option Objection} {read : Members → Except ObjectError α}
    {means : Members → α → Prop} (exact : Exact verify read means) (path : String) :
    Exact (Fields.verifyObject verify) (Fields.readObject read path) (MeansObject means) where
  meant {v} verified := by
    cases v with
    | obj ms =>
      obtain ⟨a, meant⟩ := exact.meant verified
      exact ⟨a, ms, rfl, meant⟩
    | _ => cases verified
  verified meant := by
    obtain ⟨ms, rfl, meant⟩ := meant
    exact exact.verified meant
  read meant := by
    obtain ⟨ms, rfl, meant⟩ := meant
    exact exact.read meant

theorem member {verify : Json → Option Objection} {read : Json → Except ObjectError α}
    {means : Json → α → Prop} (exact : Exact verify read means) (key : String) (zero : α) :
    Exact (fun ms : Members => (ms.present? key).bind verify)
      (fun ms => Fields.readMember zero read (ms.present? key))
      (fun ms => MeansMember zero means (ms.get? key)) where
  meant {ms} verified := by
    unfold Members.present? at verified
    cases found : ms.get? key with
    | none => exact ⟨zero, rfl⟩
    | some v =>
      rw [found] at verified
      cases v with
      | null => exact ⟨zero, rfl⟩
      | _ => exact exact.meant verified
  verified {ms a} meant := by
    unfold Members.present?
    cases found : ms.get? key with
    | none => rfl
    | some v =>
      rw [found] at meant
      cases v with
      | null => rfl
      | _ => exact exact.verified meant
  read {ms a} meant := by
    unfold Members.present?
    cases found : ms.get? key with
    | none =>
      rw [found] at meant
      exact congrArg Except.ok meant.symm
    | some v =>
      rw [found] at meant
      cases v with
      | null => exact congrArg Except.ok meant.symm
      | _ => exact exact.read meant

theorem message {verify : Json → Option Objection} {read : Json → Except ObjectError α}
    {means : Json → α → Prop} (exact : Exact verify read means) (key : String) :
    Exact (fun v => (verify v).map (Objection.within key)) (fun v => (read v).map some)
      (fun v m => ∃ a, m = some a ∧ means v a) where
  meant {v} verified := by
    obtain ⟨a, meant⟩ := exact.meant (Option.map_eq_none_iff.mp verified)
    exact ⟨some a, a, rfl, meant⟩
  verified meant := by
    obtain ⟨a, rfl, meant⟩ := meant
    rw [exact.verified meant]
    rfl
  read meant := by
    obtain ⟨a, rfl, meant⟩ := meant
    rw [exact.read meant]
    rfl

theorem items {verify : Json → Option Objection} {read : Json → Except ObjectError α}
    {means : Json → α → Prop} (exact : Exact verify read means) :
    Exact (fun items : List Json => items.findSome? verify) (fun items => items.mapM read)
      (List.Forall₂ means) where
  meant {items} verified := by
    induction items with
    | nil => exact ⟨[], .nil⟩
    | cons v items ih =>
      have each := List.findSome?_eq_none_iff.mp verified
      obtain ⟨a, meant⟩ := exact.meant (each v (List.mem_cons_self ..))
      have later : items.findSome? verify = none := List.findSome?_eq_none_iff.mpr
        fun w member => each w (List.mem_cons_of_mem _ member)
      obtain ⟨as, each⟩ := ih later
      exact ⟨a :: as, .cons meant each⟩
  verified {items as} each := by
    induction each with
    | nil => rfl
    | cons meant _ ih => rw [List.findSome?_cons, exact.verified meant, ih]
  read {items as} each := by
    induction each with
    | nil => rfl
    | cons meant _ ih =>
      rw [List.mapM_cons, exact.read meant, Except.ok_bind, ih]
      rfl

theorem repeated {verify : Members → Option Objection} {read : Members → Except ObjectError α}
    {means : Members → α → Prop} (exact : Exact verify read means) (key path : String) :
    Exact (Fields.verifyRepeated verify key) (Fields.readRepeated read path)
      (fun v as => ∃ items, v = .arr items ∧ List.Forall₂ (MeansObject means) items as) where
  meant {v} verified := by
    cases v with
    | arr items =>
      obtain ⟨as, each⟩ := (exact.object path).items.meant (Option.map_eq_none_iff.mp verified)
      exact ⟨as, items, rfl, each⟩
    | _ => cases verified
  verified meant := by
    obtain ⟨items, rfl, each⟩ := meant
    exact Option.map_eq_none_iff.mpr ((exact.object path).items.verified each)
  read meant := by
    obtain ⟨items, rfl, each⟩ := meant
    exact (exact.object path).items.read each

theorem and {verify verifyLater : ι → Option Objection} {read : ι → Except ObjectError α}
    {readLater : ι → Except ObjectError β} {means : ι → α → Prop} {meansLater : ι → β → Prop}
    (exact : Exact verify read means) (later : Exact verifyLater readLater meansLater) :
    Exact (fun v => (verify v).or (verifyLater v))
      (fun v => do let a ← read v; return (a, ← readLater v))
      (fun v (p : α × β) => means v p.1 ∧ meansLater v p.2) where
  meant {v} verified := by
    obtain ⟨first, second⟩ := Option.or_eq_none_iff.mp verified
    obtain ⟨a, meant⟩ := exact.meant first
    obtain ⟨b, later⟩ := later.meant second
    exact ⟨(a, b), meant, later⟩
  verified meant := by
    obtain ⟨meant, meant_later⟩ := meant
    exact Option.or_eq_none_iff.mpr ⟨exact.verified meant, later.verified meant_later⟩
  read meant := by
    obtain ⟨meant, meant_later⟩ := meant
    rw [exact.read meant, later.read meant_later]
    rfl

end Exact

namespace Json

theorem isIntegerIn_iff {v : Json} {low high : Int} :
    v.isIntegerIn low high = true ↔ ∃ k : Int, v.IsNumber k ∧ low ≤ k ∧ k ≤ high := by
  cases v with
  | num n =>
    simp only [isIntegerIn, Option.any_eq_true, decide_eq_true_eq, Number.integer?_eq_some_iff]
    constructor
    · intro ⟨k, value, bounds⟩
      exact ⟨k, ⟨n, rfl, value⟩, bounds⟩
    · intro ⟨k, ⟨m, same, value⟩, bounds⟩
      cases same
      exact ⟨k, value, bounds⟩
  | _ =>
    constructor
    · intro impossible
      cases impossible
    · intro ⟨k, ⟨_, impossible, _⟩, _⟩
      cases impossible

theorem toUInt32_of_isNumber {v : Json} {k : Int} (number : v.IsNumber k) :
    v.toUInt32 = UInt32.ofInt k := by
  obtain ⟨n, rfl, value⟩ := number
  have read := Number.integer?_eq_some_iff.mpr value
  cases n with
  | int n => exact congrArg UInt32.ofInt (Option.some.inj read)
  | float x => exact congrArg UInt32.ofInt (Binary64.truncate_of_integer? read)

theorem toInt64_of_isNumber {v : Json} {x : Int64} (number : v.IsNumber x.toInt) :
    v.toInt64 = x := by
  obtain ⟨n, rfl, value⟩ := number
  have read := Number.integer?_eq_some_iff.mpr value
  cases n with
  | int n =>
    have same : n = x.toInt := Option.some.inj read
    rw [toInt64, same, Int64.ofInt_toInt]
  | float y =>
    have low := x.le_toInt
    have high := x.toInt_lt
    have within : max (-0x8000000000000000) (min 0x7fffffffffffffff x.toInt) = x.toInt := by omega
    rw [toInt64, saturate, Binary64.truncate_of_integer? read, within, Int64.ofInt_toInt]

theorem isHalf_iff {v : Json} : v.isHalf = true ↔ ∃ n, v.IsHalf n := by
  rw [isHalf, isIntegerIn_iff]
  constructor
  · intro ⟨n, number, low, high⟩
    exact ⟨n, number, low, by omega⟩
  · intro ⟨n, number, low, high⟩
    exact ⟨n, number, low, by omega⟩

theorem joinHalves_ofInt (a b : Int) :
    joinHalves (UInt32.ofInt b) (UInt32.ofInt a) =
      Int64.ofInt (b.bmod 0x100000000 * 0x100000000 + a % 0x100000000) := by
  have upper : (UInt32.ofInt b).toInt32.toInt = b.bmod 0x100000000 := by
    rw [Word.toInt32_ofInt]
    exact Int32.toInt_ofInt
  rw [joinHalves, upper, Word.toNat_ofInt]

theorem exists_long {n : Int} (low : -0x8000000000000000 ≤ n) (high : n < 0x8000000000000000) :
    ∃ x : Int64, x.toInt = n :=
  ⟨Int64.ofInt n, Int64.toInt_ofInt_of_le low high⟩

theorem exists_joined (a b : Int) :
    ∃ x : Int64, x.toInt = b.bmod 0x100000000 * 0x100000000 + a % 0x100000000 := by
  have low := Int.le_bmod (x := b) (m := 0x100000000) (by decide)
  have high := Int.bmod_lt (x := b) (m := 0x100000000) (by decide)
  apply exists_long
  · omega
  · omega

theorem meansLong_of_isLong {v : Json} (long : v.isLong = true) : ∃ x, v.MeansLong x := by
  cases v with
  | num n =>
    have within : (Json.num n).isIntegerIn (-0x8000000000000000) 0x7fffffffffffffff = true := long
    obtain ⟨k, number, low, high⟩ := isIntegerIn_iff.mp within
    obtain ⟨x, rfl⟩ := exists_long low (by omega)
    exact ⟨x, .number number⟩
  | str s =>
    obtain ⟨n, read, fits⟩ := (Option.any_eq_true _ _).mp long
    simp only [fitsSigned, Bool.and_eq_true, decide_eq_true_eq] at fits
    obtain ⟨x, rfl⟩ := exists_long fits.1 fits.2
    exact ⟨x, .text (integerText?_eq_some_iff.mp read)⟩
  | obj ms =>
    simp only [isLong] at long
    split at long
    · rename_i low high lower upper
      obtain ⟨low_half, high_half⟩ := Bool.and_eq_true_iff.mp long
      obtain ⟨a, low_half⟩ := isHalf_iff.mp low_half
      obtain ⟨b, high_half⟩ := isHalf_iff.mp high_half
      obtain ⟨x, joined⟩ := exists_joined a b
      exact ⟨x, .halves lower upper low_half high_half joined⟩
    · cases long
  | _ => cases long

theorem isLong_of_meansLong {v : Json} {x : Int64} (means : v.MeansLong x) : v.isLong = true := by
  have low := x.le_toInt
  have high := x.toInt_lt
  cases means with
  | number number =>
    obtain ⟨n, rfl, value⟩ := number
    exact isIntegerIn_iff.mpr ⟨x.toInt, ⟨n, rfl, value⟩, low, Int.le_sub_one_of_lt high⟩
  | text spells =>
    rw [isLong, integerText?_eq_some_iff.mpr spells, Option.any_some]
    exact fitsSigned_toInt x
  | halves lower upper low_half high_half _ =>
    simp only [isLong, lower, upper, isHalf_iff.mpr ⟨_, low_half⟩, isHalf_iff.mpr ⟨_, high_half⟩]
    rfl

theorem toInt64_of_meansLong {v : Json} {x : Int64} (means : v.MeansLong x) : v.toInt64 = x := by
  cases means with
  | number number => exact toInt64_of_isNumber number
  | text spells =>
    have fits : (fitsSigned x.toInt || fitsUnsigned x.toInt) = true := by
      rw [fitsSigned_toInt, Bool.true_or]
    rw [toInt64, integerText?_eq_some_iff.mpr spells, Option.filter_some, if_pos fits]
    exact Int64.ofInt_toInt x
  | halves lower upper low_half high_half joined =>
    simp only [toInt64, lower, upper]
    rw [toUInt32_of_isNumber low_half.number, toUInt32_of_isNumber high_half.number,
      joinHalves_ofInt, ← joined, Int64.ofInt_toInt]

end Json

namespace Scalar

theorem meansKeyType_of_known {v : Json} {k : Int} (number : v.IsNumber k)
    (known : isKnownKeyType k = true) : ∃ x, v.MeansKeyType x := by
  simp only [isKnownKeyType, Bool.and_eq_true, decide_eq_true_eq] at known
  obtain ⟨⟨low, high⟩, known⟩ := known
  obtain ⟨t, known⟩ := Option.isSome_iff_exists.mp known
  have same : t.number.toInt = k := by
    rw [KeyType.number_of_ofNumber? known, Int32.toInt_ofInt_of_le low high]
  exact ⟨t.number, .number t (same ▸ number)⟩

theorem isKnownKeyType_number (k : KeyType) : isKnownKeyType k.number.toInt = true := by
  cases k <;> decide

theorem octets_of_all {items : List Json} (all : items.all (·.isIntegerIn 0 255) = true) :
    ∃ x : Bytes, List.Forall₂ (fun item b => item.IsNumber (b.toNat : Int)) items x := by
  induction items with
  | nil => exact ⟨[], .nil⟩
  | cons item items ih =>
    obtain ⟨first, later⟩ := Bool.and_eq_true_iff.mp all
    obtain ⟨k, number, low, high⟩ := isIntegerIn_iff.mp first
    obtain ⟨x, each⟩ := ih later
    have octet : (((UInt32.ofInt k).toUInt8.toNat : Nat) : Int) = k := by
      rw [Word.toNat_toUInt8_ofInt]
      omega
    exact ⟨(UInt32.ofInt k).toUInt8 :: x, .cons (octet.symm ▸ number) each⟩

theorem means_of_accepts {s : Scalar} {v : Json} (accepted : s.accepts v = true) :
    ∃ x, s.Means v x := by
  cases s with
  | string =>
    cases v with
    | str s => exact ⟨s, rfl⟩
    | _ => cases accepted
  | bool =>
    cases v with
    | bool b => exact ⟨b, rfl⟩
    | _ => cases accepted
  | int32 =>
    obtain ⟨k, number, low, high⟩ := isIntegerIn_iff.mp accepted
    have same : (Int32.ofInt k).toInt = k := Int32.toInt_ofInt_of_le low (by omega)
    rw [← same] at number
    exact ⟨Int32.ofInt k, number⟩
  | uint32 =>
    obtain ⟨k, number, low, high⟩ := isIntegerIn_iff.mp accepted
    have same : (((UInt32.ofInt k).toNat : Nat) : Int) = k := by
      rw [Word.toNat_ofInt]
      omega
    rw [← same] at number
    exact ⟨UInt32.ofInt k, number⟩
  | int64 => exact meansLong_of_isLong accepted
  | bytes =>
    cases v with
    | str s =>
      obtain ⟨x, decoded⟩ := Option.isSome_iff_exists.mp accepted
      exact ⟨x, .text (Base64.decode?_eq_some_iff.mp decoded)⟩
    | arr items =>
      obtain ⟨x, each⟩ := octets_of_all accepted
      exact ⟨x, .octets each⟩
    | _ => cases accepted
  | keyType =>
    cases v with
    | str s =>
      obtain ⟨k, known⟩ := Option.isSome_iff_exists.mp accepted
      rw [← KeyType.name_of_ofName? known]
      exact ⟨k.number, .name k⟩
    | num n =>
      obtain ⟨k, read, known⟩ := (Option.any_eq_true _ _).mp accepted
      exact meansKeyType_of_known ⟨n, rfl, Number.integer?_eq_some_iff.mp read⟩ known
    | _ => cases accepted

theorem accepts_of_means {s : Scalar} {v : Json} {x : s.Value} (means : s.Means v x) :
    s.accepts v = true := by
  cases s with
  | string | bool =>
    obtain rfl := means
    rfl
  | int32 =>
    have low := Int32.le_toInt x
    have high := Int32.toInt_lt x
    exact isIntegerIn_iff.mpr ⟨_, means, low, Int.le_sub_one_of_lt high⟩
  | uint32 =>
    have bound := UInt32.toNat_lt x
    exact isIntegerIn_iff.mpr ⟨_, means, Int.natCast_nonneg _, by omega⟩
  | int64 => exact isLong_of_meansLong means
  | bytes =>
    cases means with
    | text spells => exact Option.isSome_iff_exists.mpr ⟨x, Base64.decode?_eq_some_iff.mpr spells⟩
    | octets each =>
      simp only [accepts]
      induction each with
      | nil => rfl
      | @cons item b _ _ number _ ih =>
        have bound := b.toNat_lt
        have first : item.isIntegerIn 0 255 = true :=
          isIntegerIn_iff.mpr ⟨_, number, Int.natCast_nonneg _, by omega⟩
        exact Bool.and_eq_true_iff.mpr ⟨first, ih⟩
  | keyType =>
    cases means with
    | name k => simp only [accepts, KeyType.ofName?_name, Option.isSome_some]
    | number k number =>
      obtain ⟨n, rfl, value⟩ := number
      simp only [accepts, Number.integer?_eq_some_iff.mpr value, Option.any_some]
      exact isKnownKeyType_number k

theorem ofJson_of_means {s : Scalar} {v : Json} {x : s.Value} (path : String)
    (means : s.Means v x) : s.ofJson path v = .ok x := by
  cases s with
  | string | bool =>
    obtain rfl := means
    rfl
  | int32 =>
    rw [ofJson, toUInt32_of_isNumber means, Word.toInt32_ofInt]
    exact congrArg Except.ok (Int32.ofInt_toInt x)
  | uint32 =>
    rw [ofJson, toUInt32_of_isNumber means]
    exact congrArg Except.ok (Word.ofInt_toNat x)
  | int64 => exact congrArg Except.ok (toInt64_of_meansLong means)
  | bytes =>
    cases means with
    | text spells => simp only [ofJson, Base64.decode?_eq_some_iff.mpr spells]
    | octets each =>
      refine congrArg Except.ok ?_
      induction each with
      | nil => rfl
      | cons number _ ih =>
        rw [List.map_cons, ih, toUInt32_of_isNumber number, Word.toUInt8_ofInt_toNat]
  | keyType =>
    cases means with
    | name k => simp only [ofJson, KeyType.ofName?_name, Option.map_some, Option.getD_some]
    | number k number =>
      obtain ⟨n, rfl, value⟩ := number
      rw [ofJson, toUInt32_of_isNumber ⟨n, rfl, value⟩, Word.toInt32_ofInt]
      exact congrArg Except.ok (Int32.ofInt_toInt _)

theorem exact (s : Scalar) (key path : String) : Exact (s.verify key) (s.ofJson path) s.Means where
  meant {v} verified := by
    by_cases accepted : s.accepts v = true
    · exact means_of_accepts accepted
    · rw [verify, if_neg accepted] at verified
      cases verified
  verified means := by rw [verify, if_pos (accepts_of_means means)]
  read means := ofJson_of_means path means

end Scalar

theorem Fields.exact (fs : Fields) (owner : MessageName) :
    Exact fs.verifyMembers (fs.ofMembers owner) fs.Means := by
  induction fs generalizing owner with
  | nil => exact ⟨fun _ => ⟨(), True.intro⟩, fun _ => rfl, fun _ => rfl⟩
  | scalar info kind rest ih =>
    exact ((kind.exact info.key _).member info.key kind.zero).and (ih owner)
  | message info name body rest body_ih ih =>
    exact ((((body_ih name).object _).message info.key).member info.key none).and (ih owner)
  | repeated info name body rest body_ih ih =>
    exact (((body_ih name).repeated info.key _).member info.key []).and (ih owner)

namespace Schema

/-- Just the objects that mean a record are let through, and they are read as that record, whatever
the schema. So nothing that passes wraps, is cut off or falls back to zero, and what cannot be read
is refused. -/
theorem verify_exact (s : Schema) (v : Json) :
    (s.verify v = none → ∃ r, s.readObject v = .ok r ∧ s.Means v r) ∧
    (∀ r, s.Means v r → s.verify v = none ∧ s.readObject v = .ok r) ∧
    (∀ e, s.readObject v = .error e → s.verify v ≠ none) := by
  have exact := (s.fields.exact s.name).object s.name.full
  have read {r : s.Record} (meant : s.Means v r) : s.readObject v = .ok r := by
    have read : s.ofObject v = .ok r := exact.read meant
    rw [readObject, read]
    rfl
  have lossless (verified : s.verify v = none) : ∃ r, s.readObject v = .ok r ∧ s.Means v r := by
    obtain ⟨r, meant⟩ := exact.meant verified
    exact ⟨r, read meant, meant⟩
  refine ⟨lossless, fun r meant => ⟨exact.verified meant, read meant⟩, fun e failed verified => ?_⟩
  obtain ⟨r, succeeded, _⟩ := lossless verified
  rw [failed] at succeeded
  cases succeeded

/-- One as a double, all low bits by themselves, and the least integer between blanks. -/
def boundaryUtxo : Json :=
  .obj [("vout", .num (.float ⟨false, 1 <<< 52, 1022, by decide, by decide, by decide⟩)),
    ("amount", .obj [("low", .ofInt (-1)), ("high", .ofInt 0)]),
    ("sequence", .str " -9223372036854775808\n"), ("address", .null)]

theorem verify_exact_boundaryUtxo :
    (Message.schemaOf Utxo).verify boundaryUtxo = none ∧
    ∃ r, (Message.schemaOf Utxo).readObject boundaryUtxo = .ok r ∧
      (Message.schemaOf Utxo).Means boundaryUtxo r := by
  have verified : (Message.schemaOf Utxo).verify boundaryUtxo = none := by decide +kernel
  exact ⟨verified, (verify_exact _ _).1 verified⟩

end Schema

end WalletBridge
