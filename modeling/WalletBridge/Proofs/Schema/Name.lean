import Mathlib.Data.List.Nodup
import Mathlib.Data.List.TakeWhile
import WalletBridge.Catalog

namespace WalletBridge

namespace MessageName

theorem bne_of_mem_reverse {c : Char} {s : String} (absent : c ∉ s.toList) :
    ∀ d ∈ s.toList.reverse, (d != c) = true := by
  intro d member
  have different : d ≠ c := fun same => absent (same ▸ List.mem_reverse.mp member)
  simpa using different

theorem afterLast_append {c : Char} (head : String) {tail : String} (absent : c ∉ tail.toList) :
    afterLast c (head ++ c.toString ++ tail) = tail := by
  have reversed : (head ++ c.toString ++ tail).toList.reverse =
      tail.toList.reverse ++ c :: head.toList.reverse := by
    simp [Char.toString]
  rw [afterLast, reversed, List.takeWhile_append_of_pos (bne_of_mem_reverse absent),
    List.takeWhile_cons_of_neg (by simp), List.append_nil, List.reverse_reverse, String.ofList_toList]

theorem afterLast_of_not_mem {c : Char} {s : String} (absent : c ∉ s.toList) : afterLast c s = s := by
  rw [afterLast, List.takeWhile_eq_self_iff.mpr (bne_of_mem_reverse absent), List.reverse_reverse,
    String.ofList_toList]

theorem afterLast_split (c : Char) (s : String) :
    s = afterLast c s ∨ ∃ head, s = head ++ c.toString ++ afterLast c s := by
  have whole := List.takeWhile_append_dropWhile (p := (· != c)) (l := s.toList.reverse)
  cases dropped : s.toList.reverse.dropWhile (· != c) with
  | nil =>
    left
    rw [dropped, List.append_nil] at whole
    rw [afterLast, whole, List.reverse_reverse, String.ofList_toList]
  | cons d front =>
    right
    have stopped : d = c := by
      have first := List.head?_dropWhile_not (· != c) s.toList.reverse
      rw [dropped] at first
      simpa using first
    rw [dropped, stopped] at whole
    refine ⟨String.ofList front.reverse, String.toList_inj.mp ?_⟩
    rw [← List.reverse_reverse s.toList, ← whole]
    simp [afterLast, Char.toString]

theorem afterLast_eq_iff {c : Char} {s tail : String} (absent : c ∉ tail.toList) :
    afterLast c s = tail ↔ s = tail ∨ ∃ head, s = head ++ c.toString ++ tail := by
  constructor
  · rintro rfl
    exact afterLast_split c s
  · rintro (rfl | ⟨head, rfl⟩)
    · exact afterLast_of_not_mem absent
    · exact afterLast_append head absent

theorem afterLast_typeUrl {n : MessageName} (plain : '/' ∉ n.full.toList) :
    afterLast '/' n.typeUrl = n.full :=
  afterLast_append "type.googleapis.com" plain

theorem matchesUrl_iff {n : MessageName} (plain : '/' ∉ n.full.toList) {url : String} :
    n.matchesUrl url = true ↔ url = n.full ∨ ∃ head, url = head ++ "/" ++ n.full := by
  rw [matchesUrl, beq_iff_eq]
  exact afterLast_eq_iff plain

theorem full_eq_of_matchesUrl {n m : MessageName} {url : String} (first : n.matchesUrl url = true)
    (second : m.matchesUrl url = true) : n.full = m.full :=
  (beq_iff_eq.mp first).symm.trans (beq_iff_eq.mp second)

end MessageName

namespace Catalog

theorem slash_not_mem_full {s : Schema} (known : s ∈ all) : '/' ∉ s.name.full.toList := by
  have every : ∀ s ∈ all, '/' ∉ s.name.full.toList := by decide +kernel
  exact every s known

theorem nodup_full : (all.map (·.name.full)).Nodup := by decide +kernel

theorem eq_of_full_eq {s t : Schema} (known : s ∈ all) (known' : t ∈ all)
    (same : s.name.full = t.name.full) : s = t :=
  List.inj_on_of_nodup_map nodup_full known known' same

end Catalog

end WalletBridge
