import Mathlib.Data.List.Sort
import Mathlib.Data.String.Basic
import WalletBridge.Json.Printer

namespace WalletBridge.Json

mutual
def sorted : Json → Json
  | .null => .null
  | .bool b => .bool b
  | .num n => .num n
  | .str s => .str s
  | .arr items => .arr (sortedItems items)
  | .obj ms => .obj (sortMembers (sortedMembers ms))
termination_by structural v => v

def sortedItems : List Json → List Json
  | [] => []
  | v :: rest => sorted v :: sortedItems rest
termination_by structural items => items

def sortedMembers : List (String × Json) → List (String × Json)
  | [] => []
  | (k, v) :: rest => (k, sorted v) :: sortedMembers rest
termination_by structural ms => ms
end

theorem sortedItems_eq_map (items : List Json) : sortedItems items = items.map sorted := by
  induction items with
  | nil => rfl
  | cons v rest ih => rw [sortedItems, ih, List.map_cons]

theorem sortedMembers_eq_map (ms : Members) :
    sortedMembers ms = ms.map fun m => (m.1, m.2.sorted) := by
  induction ms with
  | nil => rfl
  | cons m rest ih => rw [sortedMembers, ih, List.map_cons]

theorem compactMembers_eq_map (ms : Members) :
    compactMembers ms = ms.map fun m => (m.1, m.2.compact) := by
  induction ms with
  | nil => rfl
  | cons m rest ih => rw [compactMembers, ih, List.map_cons]

section

variable {α β : Type}

theorem sortMembers_eq_insertionSort (ms : List (String × α)) :
    sortMembers ms = ms.insertionSort fun a b => a.1 ≤ b.1 := by
  have insert_eq (m : String × α) (ms : List (String × α)) :
      insertMember m ms = ms.orderedInsert (fun a b => a.1 ≤ b.1) m := by
    induction ms with
    | nil => rfl
    | cons n rest ih => rw [insertMember, ih, List.orderedInsert]
  induction ms with
  | nil => rfl
  | cons m rest ih =>
    rw [List.insertionSort_cons, ← ih, ← insert_eq]
    rfl

theorem sortMembers_sortMembers (ms : List (String × α)) :
    sortMembers (sortMembers ms) = sortMembers ms := by
  have total : Std.Total fun a b : String × α => a.1 ≤ b.1 := ⟨fun a b => le_total a.1 b.1⟩
  have trans : IsTrans (String × α) fun a b => a.1 ≤ b.1 := ⟨fun _ _ _ => le_trans⟩
  simp only [sortMembers_eq_insertionSort]
  exact (List.pairwise_insertionSort _ ms).insertionSort_eq

theorem sortMembers_map (f : α → β) (ms : List (String × α)) :
    sortMembers (ms.map fun m => (m.1, f m.2)) = (sortMembers ms).map fun m => (m.1, f m.2) := by
  have keys_kept := List.map_insertionSort (fun a b : String × α => a.1 ≤ b.1)
    (fun a b : String × β => a.1 ≤ b.1) (fun m => (m.1, f m.2)) ms fun _ _ _ _ => Iff.rfl
  rw [sortMembers_eq_insertionSort, sortMembers_eq_insertionSort, keys_kept]

end

mutual
/-- The printer puts the members in order itself. -/
theorem compact_sorted : (v : Json) → v.sorted.compact = v.compact
  | .null | .bool _ | .num _ | .str _ => rfl
  | .arr items => by rw [sorted, compact, compact, compactItems_sorted items]
  | .obj ms => by
    have members : compactMembers (sortMembers (sortedMembers ms)) =
        sortMembers (compactMembers ms) := by
      rw [compactMembers_eq_map, ← sortMembers_map, ← compactMembers_eq_map, compactMembers_sorted ms]
    rw [sorted, compact, compact, members, sortMembers_sortMembers]

theorem compactItems_sorted : (items : List Json) →
    compactItems (sortedItems items) = compactItems items
  | [] => rfl
  | v :: rest => by
    rw [sortedItems, compactItems, compactItems, compact_sorted v, compactItems_sorted rest]

theorem compactMembers_sorted : (ms : List (String × Json)) →
    compactMembers (sortedMembers ms) = compactMembers ms
  | [] => rfl
  | (k, v) :: rest => by
    rw [sortedMembers, compactMembers, compactMembers, compact_sorted v, compactMembers_sorted rest]
end

namespace Members

theorem get?_cons (m : String × Json) (ms : Members) (key : String) :
    get? (m :: ms) key = if key = m.1 then some m.2 else ms.get? key := by
  rw [get?, List.lookup_cons]
  by_cases same : key = m.1
  · rw [if_pos same, beq_iff_eq.mpr same]
  · rw [if_neg same, beq_eq_false_iff_ne.mpr same]
    rfl

theorem get?_insertMember (m : String × Json) (ms : Members) (key : String) :
    get? (insertMember m ms) key = get? (m :: ms) key := by
  induction ms with
  | nil => rfl
  | cons n rest ih =>
    rw [insertMember]
    split
    · rfl
    · rename_i after
      have different : m.1 ≠ n.1 := fun same => after (le_of_eq same)
      rw [get?_cons, ih, get?_cons, get?_cons, get?_cons]
      by_cases first : key = n.1
      · rw [if_pos first, if_neg fun same => different (same.symm.trans first), if_pos first]
      · rw [if_neg first, if_neg first]

theorem get?_sortMembers (ms : Members) (key : String) : get? (sortMembers ms) key = ms.get? key := by
  induction ms with
  | nil => rfl
  | cons m rest ih =>
    have step : get? (sortMembers (m :: rest)) key = get? (m :: sortMembers rest) key :=
      get?_insertMember m (sortMembers rest) key
    rw [step, get?_cons, ih, get?_cons]

theorem get?_map (f : String → Json → Json) (ms : Members) (key : String) :
    get? (ms.map fun m => (m.1, f m.1 m.2)) key = (ms.get? key).map (f key) := by
  induction ms with
  | nil => rfl
  | cons m rest ih =>
    rw [List.map_cons, get?_cons, ih, get?_cons]
    split
    · rename_i same
      rw [same, Option.map_some]
    · rfl

theorem get?_filter (p : String → Bool) (ms : Members) (key : String) :
    get? (ms.filter fun m => p m.1) key = if p key then ms.get? key else none := by
  induction ms with
  | nil => exact (ite_self none).symm
  | cons m rest ih =>
    rw [List.filter_cons, get?_cons]
    by_cases same : key = m.1
    · rw [if_pos same, same]
      split
      · rw [get?_cons, if_pos rfl]
      · rename_i dropped
        rw [← same, ih, same, if_neg dropped]
    · rw [if_neg same, ← ih]
      split
      · rw [get?_cons, if_neg same]
      · rfl

theorem get?_sorted (ms : Members) (key : String) :
    get? (sortMembers (sortedMembers ms)) key = (ms.get? key).map sorted := by
  rw [get?_sortMembers, sortedMembers_eq_map]
  exact get?_map (fun _ => sorted) ms key

end Members

end WalletBridge.Json
