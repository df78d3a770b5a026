import WalletBridge.Catalog
import WalletBridge.Schema.Decode

namespace WalletBridge

namespace Fields

def tags (fs : Fields) : List Nat :=
  fs.infos.map FieldInfo.tag

def keys (fs : Fields) : List String :=
  fs.infos.map FieldInfo.key

def depth : Fields → Nat
  | .nil => 0
  | .scalar _ _ rest => rest.depth
  | .message _ _ body rest | .repeated _ _ body rest => max (body.depth + 1) rest.depth

end Fields

structure FieldInfo.Fresh (info : FieldInfo) (later : Fields) : Prop where
  tag_pos : 0 < info.tag
  tag_lt : info.tag < 1 <<< 29
  tag_fresh : info.tag ∉ later.tags
  key_fresh : info.key ∉ later.keys

instance (info : FieldInfo) (later : Fields) : Decidable (info.Fresh later) :=
  decidable_of_iff
    (0 < info.tag ∧ info.tag < 1 <<< 29 ∧ info.tag ∉ later.tags ∧ info.key ∉ later.keys)
    ⟨fun ⟨pos, bound, tag, key⟩ => ⟨pos, bound, tag, key⟩,
      fun fresh => ⟨fresh.tag_pos, fresh.tag_lt, fresh.tag_fresh, fresh.key_fresh⟩⟩

namespace Fields

def WellFormed : Fields → Prop
  | .nil => True
  | .scalar info _ rest => info.Fresh rest ∧ rest.WellFormed
  | .message info _ body rest | .repeated info _ body rest =>
    info.Fresh rest ∧ body.WellFormed ∧ rest.WellFormed

instance decidableWellFormed : (fs : Fields) → Decidable fs.WellFormed
  | .nil => inferInstanceAs (Decidable True)
  | .scalar info _ rest =>
    have := decidableWellFormed rest
    inferInstanceAs (Decidable (info.Fresh rest ∧ rest.WellFormed))
  | .message info _ body rest | .repeated info _ body rest =>
    have := decidableWellFormed body
    have := decidableWellFormed rest
    inferInstanceAs (Decidable (info.Fresh rest ∧ body.WellFormed ∧ rest.WellFormed))

end Fields

namespace Schema

structure WellFormed (s : Schema) : Prop where
  fields : s.fields.WellFormed
  depth_lt : s.fields.depth < recursionBudget

instance (s : Schema) : Decidable s.WellFormed :=
  decidable_of_iff (s.fields.WellFormed ∧ s.fields.depth < recursionBudget)
    ⟨fun ⟨fields, depth⟩ => ⟨fields, depth⟩, fun wf => ⟨wf.fields, wf.depth_lt⟩⟩

end Schema

namespace Catalog

theorem wellFormed {s : Schema} (member : s ∈ all) : s.WellFormed := by
  have every : ∀ s ∈ all, s.WellFormed := by decide +kernel
  exact every s member

end Catalog

end WalletBridge
