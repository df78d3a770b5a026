import WalletBridge.Proofs.Wire.Grammar

namespace WalletBridge.Wire

def Local {α : Type} (read : Bytes → Except DecodeError (α × Bytes)) : Prop :=
  ∀ bs a rest, read bs = .ok (a, rest) →
    ∃ front, bs = front ++ rest ∧ ∀ other, read (front ++ other) = .ok (a, other)

variable {α β : Type}

theorem locate_eq_ok_iff {l : Location} {x : Except DecodeError α} {a : α} :
    locate l x = .ok a ↔ x = .ok a := by
  cases x <;> simp [locate]

theorem eq_of_checkWireType {w expected : WireType} {u : Unit}
    (checked : checkWireType w expected = .ok u) : w = expected := by
  rw [checkWireType] at checked
  split at checked
  · assumption
  · cases checked

theorem Local.extend {read : Bytes → Except DecodeError (α × Bytes)} (isLocal : Local read) {a : α}
    {bs : Bytes} (whole : read bs = .ok (a, [])) (rest : Bytes) :
    read (bs ++ rest) = .ok (a, rest) := by
  obtain ⟨front, rfl, same⟩ := isLocal bs a [] whole
  rw [List.append_nil]
  exact same rest

theorem Local.fail (e : DecodeError) : Local fun _ => (.error e : Except DecodeError (α × Bytes)) :=
  fun _ _ _ read => nomatch read

theorem Local.map {read : Bytes → Except DecodeError (α × Bytes)} (f : α → β) (isLocal : Local read) :
    Local fun bs => do
      let (a, rest) ← read bs
      return (f a, rest) := by
  intro bs b rest mapped
  obtain ⟨⟨a, later⟩, found, same⟩ := Except.bind_eq_ok_iff.mp mapped
  cases same
  obtain ⟨front, rfl, again⟩ := isLocal bs a rest found
  exact ⟨front, rfl, fun other => Except.bind_eq_ok_iff.mpr ⟨(a, other), again other, rfl⟩⟩

theorem Local.check {read : Bytes → Except DecodeError (α × Bytes)} (w expected : WireType)
    (isLocal : Local read) : Local fun bs => checkWireType w expected >>= fun _ => read bs := by
  cases checkWireType w expected with
  | ok => exact isLocal
  | error e => exact Local.fail e

theorem Local.locate {read : Bytes → Except DecodeError (α × Bytes)} (l : Location)
    (isLocal : Local read) : Local fun bs => Wire.locate l (read bs) := by
  intro bs a rest found
  obtain ⟨front, split, again⟩ := isLocal bs a rest (locate_eq_ok_iff.mp found)
  exact ⟨front, split, fun other => locate_eq_ok_iff.mpr (again other)⟩

theorem Local.ite (here : Prop) [Decidable here] {first second : Bytes → Except DecodeError (α × Bytes)}
    (yes : Local first) (no : Local second) : Local fun bs => if here then first bs else second bs := by
  by_cases holds : here
  · simp only [if_pos holds]
    exact yes
  · simp only [if_neg holds]
    exact no

theorem Varint.local_read : Local read := by
  intro bs n rest found
  obtain ⟨head, spells, rfl⟩ := read_eq_ok_iff.mp found
  exact ⟨head, rfl, fun other => read_eq_ok_iff.mpr ⟨head, spells, rfl⟩⟩

theorem local_readDelimited : Local readDelimited := by
  intro bs body rest found
  obtain ⟨front, delimits, rfl⟩ := readDelimited_eq_ok_iff.mp found
  exact ⟨front, rfl, fun other => readDelimited_eq_ok_iff.mpr ⟨front, delimits, rfl⟩⟩

theorem local_skipField (budget : Nat) (key : Key) (a : α) :
    Local fun bs => do return (a, ← skipField budget key bs) := by
  intro bs b rest found
  obtain ⟨later, skipped, same⟩ := Except.bind_eq_ok_iff.mp found
  cases same
  obtain ⟨value, valued, rfl⟩ := isValue_of_skipField skipped
  exact ⟨value, rfl, fun other =>
    Except.bind_eq_ok_iff.mpr ⟨other, skipField_of_isValue valued other, rfl⟩⟩

end WalletBridge.Wire
