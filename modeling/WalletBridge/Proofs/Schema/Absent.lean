import WalletBridge.Proofs.Schema.Slice

namespace WalletBridge

open Wire

namespace Fields

def ZeroOutside (tags : List Nat) : (fs : Fields) → fs.Record → Prop
  | .nil, _ => True
  | .scalar info kind rest, (v, r) => (info.tag ∉ tags → v = kind.zero) ∧ rest.ZeroOutside tags r
  | .message info _ _ rest, (m, r) => (info.tag ∉ tags → m = none) ∧ rest.ZeroOutside tags r
  | .repeated info _ _ rest, (ms, r) => (info.tag ∉ tags → ms = []) ∧ rest.ZeroOutside tags r

theorem zeroOutside_zero (tags : List Nat) (fs : Fields) : fs.ZeroOutside tags fs.zero := by
  induction fs with
  | nil => trivial
  | scalar info kind rest ih => exact ⟨fun _ => rfl, ih⟩
  | message info name body rest _ ih => exact ⟨fun _ => rfl, ih⟩
  | repeated info name body rest _ ih => exact ⟨fun _ => rfl, ih⟩

theorem ZeroOutside.mergeField {owner : String} {fs : Fields} {budget : Nat} {key : Key}
    {r r' : fs.Record} {bs rest : Bytes} {tags : List Nat} (zero : fs.ZeroOutside tags r)
    (mentioned : key.tag ∈ tags)
    (merged : fs.mergeField owner budget key r bs = .ok (r', rest)) : fs.ZeroOutside tags r' := by
  have present {info : FieldInfo} {α : Type} {v zero : α} (here : key.tag = info.tag)
      (absent : info.tag ∉ tags) : v = zero :=
    absurd (here ▸ mentioned) absent
  induction fs with
  | nil => trivial
  | scalar info kind fields ih =>
    obtain ⟨v, r⟩ := r
    rw [Fields.mergeField] at merged
    rcases first_or_later (·, r) (v, ·) merged with ⟨here, v, _, rfl⟩ | ⟨_, r, passed, rfl⟩
    · exact ⟨present here, zero.2⟩
    · exact ⟨zero.1, ih zero.2 passed⟩
  | message info name body fields _ ih =>
    obtain ⟨m, r⟩ := r
    rw [Fields.mergeField] at merged
    rcases first_or_later (some ·, r) (m, ·) merged with ⟨here, m, _, rfl⟩ | ⟨_, r, passed, rfl⟩
    · exact ⟨present here, zero.2⟩
    · exact ⟨zero.1, ih zero.2 passed⟩
  | repeated info name body fields _ ih =>
    obtain ⟨ms, r⟩ := r
    rw [Fields.mergeField] at merged
    rcases first_or_later (ms ++ [·], r) (ms, ·) merged with ⟨here, m, _, rfl⟩ | ⟨_, r, passed, rfl⟩
    · exact ⟨present here, zero.2⟩
    · exact ⟨zero.1, ih zero.2 passed⟩

theorem tagged_of_parses {owner : String} {fs : Fields} {budget : Nat} {r r' : fs.Record} {bs : Bytes}
    (parses : Parses (fs.mergeField owner budget) r bs r') :
    ∃ tags, Tagged bs tags ∧ ∀ all, tags ⊆ all → fs.ZeroOutside all r → fs.ZeroOutside all r' := by
  -- All tags are known only at the end, so what is zero is carried along for every list with those to come.
  induction parses with
  | done r => exact ⟨[], .nil, fun _ _ zero => zero⟩
  | @field r next r' head value later key keyed merged _ ih =>
    obtain ⟨more, valued⟩ := isValue_of_mergeField merged
    obtain ⟨tags, tagged, kept⟩ := ih
    refine ⟨key.tag :: tags, .cons (keyed.read _) (skipField_of_isValue valued later) tagged, ?_⟩
    intro all included zero
    obtain ⟨first, included⟩ := List.cons_subset.mp included
    exact kept all included (zero.mergeField first merged)

end Fields

theorem Schema.zeroOutside_of_parse {s : Schema} {bs : Bytes} {r : s.Record}
    (parsed : s.parse bs = .ok r) : ∃ tags, Tagged bs tags ∧ s.fields.ZeroOutside tags r := by
  obtain ⟨tags, tagged, kept⟩ := Fields.tagged_of_parses (parse_eq_ok_iff.mp parsed)
  exact ⟨tags, tagged, kept tags (List.Subset.refl _) (s.fields.zeroOutside_zero tags)⟩

end WalletBridge
