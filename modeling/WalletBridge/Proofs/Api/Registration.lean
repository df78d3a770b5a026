import WalletBridge.Proofs.Api.Request
import WalletBridge.Proofs.Api.Schedule

namespace WalletBridge.Api

variable {H : Type} {code : Code H} {d : Target} {method : Method} {h : H}

def Move.Replaces (d : Target) : Move H → Prop
  | .applied _ (.create name) | .applied _ (.copy _ name) => .named name = d
  | _ => False

/-- After the step it does not matter what the dispatcher had for the method. -/
def Move.Sets (d : Target) (method : Method) : Move H → Prop
  | .applied _ (.register d' method' _) => d' = d ∧ method' = method
  | .applied _ (.create name) | .applied _ (.copy _ name) => .named name = d
  | _ => False

/-- By the steps of a run, the latest first, the dispatcher has `h` for the method. -/
inductive Registered (method : Method) (h : H) : Target → List (Move H) → Prop
  | now (t : ThreadId) (d : Target) (earlier : List (Move H)) :
      Registered method h d (.applied t (.register d method h) :: earlier)
  | copied {d : Target} {earlier : List (Move H)} (t : ThreadId) (name : String)
      (before : Registered method h d earlier) :
      Registered method h (.named name) (.applied t (.copy d name) :: earlier)
  | before {d : Target} {earlier : List (Move H)} (move : Move H)
      (before : Registered method h d earlier) (unset : ¬ move.Sets d method) :
      Registered method h d (move :: earlier)

namespace Machine

theorem dump_tables (m : Machine H) (t : ThreadId) (text : String) :
    (m.dump t text).tables = m.tables := by
  obtain ⟨journal, dumped⟩ := m.dump_frame t text
  rw [dumped]

theorem lastErrorMessage_tables (m : Machine H) (t : ThreadId) :
    (m.lastErrorMessage t).2.tables = m.tables := by
  obtain ⟨journal, reported⟩ := m.lastErrorMessage_frame t
  rw [reported]

theorem enter_tables (m : Machine H) (t : ThreadId) (c : Call H) :
    (m.enter code t c).1.tables = m.tables := by
  obtain ⟨config, journal, entered⟩ := m.enter_frame code t c
  rw [entered]

theorem land_tables (m : Machine H) (t : ThreadId) (o : Outcome Bytes) :
    (m.land t o).2.tables = m.tables := by
  cases o with
  | ok b => rfl
  | fail f => exact m.notifyFailure_tables t f
  | panic p => exact m.notifyFailure_tables t _

theorem register_tables_of_ne (m : Machine H) (t : ThreadId) {d d' : Target} {method method' : Method}
    (h : H) (other : ¬ (d' = d ∧ method' = method)) :
    (m.register t d' method' h).tables d method = m.tables d method := by
  by_cases here : d = d'
  · have different : method ≠ method' := fun same => other ⟨here.symm, same.symm⟩
    simp [register, here, different]
  · simp [register, here]

end Machine

theorem Move.tables_of_unset {move : Move H} (unset : ¬ move.Sets d method) (m : Machine H) :
    (move.after code m).tables d method = m.tables d method := by
  cases move with
  | applied t e =>
    cases e with
    | register d' method' h => exact m.register_tables_of_ne t h unset
    | create name => exact congrFun (if_neg (Ne.symm unset)) method
    | copy d' name => exact congrFun (if_neg (Ne.symm unset)) method
    | lastErrorMessage => exact congrFun (congrFun (m.lastErrorMessage_tables t) d) method
    | encode s r => exact congrFun (congrFun (m.dump_tables t _) d) method
    | _ => rfl
  | entered t c => exact congrFun (congrFun (m.enter_tables t c) d) method
  | landed t c o => exact congrFun (congrFun (m.land_tables t o) d) method

section

variable {t : ThreadId} {moves : List (Move H)}

theorem registered_register_iff {h' : H} :
    Registered method h d (.applied t (.register d method h') :: moves) ↔ h' = h := by
  constructor
  · intro registered
    cases registered with
    | now => rfl
    | before _ _ unset => exact absurd ⟨rfl, rfl⟩ unset
  · rintro rfl
    exact .now t d moves

theorem not_registered_create {name : String} :
    ¬ Registered method h (.named name) (.applied t (.create name) :: moves) := by
  intro registered
  cases registered with
  | before _ _ unset => exact unset rfl

theorem registered_copy_iff {name : String} :
    Registered method h (.named name) (.applied t (.copy d name) :: moves) ↔
      Registered method h d moves := by
  constructor
  · intro registered
    cases registered with
    | copied _ _ before => exact before
    | before _ _ unset => exact absurd rfl unset
  · exact .copied t name

theorem registered_cons_iff {move : Move H} (unset : ¬ move.Sets d method) :
    Registered method h d (move :: moves) ↔ Registered method h d moves := by
  constructor
  · intro registered
    cases registered with
    | now => exact absurd ⟨rfl, rfl⟩ unset
    | copied => exact absurd rfl unset
    | before _ before _ => exact before
  · exact fun before => .before move before unset

end

/-- Each step either decides the entry or keeps it. -/
theorem Machine.tables_replay_iff (moves : List (Move H)) :
    (Machine.replay code moves).tables d method = some h ↔ Registered method h d moves := by
  induction moves generalizing d with
  | nil =>
    constructor
    · intro found
      cases found
    · intro registered
      cases registered
  | cons move moves ih =>
    by_cases set : move.Sets d method
    · cases move with
      | applied t e =>
        cases e with
        | register d' method' h' =>
          obtain ⟨rfl, rfl⟩ := set
          rw [registered_register_iff]
          simp [replay, Move.after, apply, register]
        | create name =>
          cases set
          refine iff_of_false ?_ not_registered_create
          simp [replay, Move.after, apply]
        | copy source name =>
          cases set
          rw [registered_copy_iff, ← ih]
          simp [replay, Move.after, apply]
        | _ => exact absurd set id
      | entered t c => exact absurd set id
      | landed t c o => exact absurd set id
    · rw [registered_cons_iff set, ← ih, replay, Move.tables_of_unset set]

def LastRegistered (method : Method) (h : H) (d : Target) (moves : List (Move H)) : Prop :=
  ∃ t later earlier, moves = later ++ .applied t (.register d method h) :: earlier ∧
    ∀ u h', .applied u (.register d method h') ∉ later

section

variable {move : Move H} {moves : List (Move H)}

theorem not_lastRegistered_nil : ¬ LastRegistered method h d [] := by
  rintro ⟨t, later, earlier, split, _⟩
  cases later <;> cases split

theorem lastRegistered_register_iff {t : ThreadId} {h' : H} :
    LastRegistered method h d (.applied t (.register d method h') :: moves) ↔ h' = h := by
  constructor
  · rintro ⟨u, later, earlier, split, latest⟩
    cases later with
    | nil =>
      cases split
      rfl
    | cons first later =>
      cases split
      exact absurd (List.mem_cons_self ..) (latest t h')
  · rintro rfl
    exact ⟨t, [], moves, rfl, fun _ _ => List.not_mem_nil⟩

theorem lastRegistered_cons_iff (other : ∀ t h', move ≠ .applied t (.register d method h')) :
    LastRegistered method h d (move :: moves) ↔ LastRegistered method h d moves := by
  constructor
  · rintro ⟨u, later, earlier, split, latest⟩
    cases later with
    | nil =>
      cases split
      exact absurd rfl (other u h)
    | cons first later =>
      cases split
      exact ⟨u, later, earlier, rfl, fun v h' member => latest v h' (List.mem_cons_of_mem _ member)⟩
  · rintro ⟨u, later, earlier, rfl, latest⟩
    refine ⟨u, move :: later, earlier, rfl, ?_⟩
    intro v h' member
    rcases List.mem_cons.mp member with same | member
    · exact other v h' same.symm
    · exact latest v h' member

theorem Move.sets_iff (kept : ¬ move.Replaces d) :
    move.Sets d method ↔ ∃ t h, move = .applied t (.register d method h) := by
  constructor
  · intro set
    cases move with
    | applied t e =>
      cases e with
      | register d' method' h =>
        obtain ⟨rfl, rfl⟩ := set
        exact ⟨t, h, rfl⟩
      | create name => exact absurd set kept
      | copy d' name => exact absurd set kept
      | _ => exact absurd set id
    | entered t c => exact absurd set id
    | landed t c o => exact absurd set id
  · rintro ⟨t, h, rfl⟩
    exact ⟨rfl, rfl⟩

end

/-- As long as a dispatcher is not made anew, its own registrations come first, and what it had before
counts for the other methods. -/
theorem registered_append_iff {later earlier : List (Move H)}
    (kept : ∀ move ∈ later, ¬ move.Replaces d) :
    Registered method h d (later ++ earlier) ↔
      LastRegistered method h d later ∨
        (∀ t h', .applied t (.register d method h') ∉ later) ∧ Registered method h d earlier := by
  induction later with
  | nil => simp [not_lastRegistered_nil]
  | cons move later ih =>
    have rest := ih fun other member => kept other (List.mem_cons_of_mem _ member)
    have sets : move.Sets d method ↔ ∃ t h, move = .applied t (.register d method h) :=
      Move.sets_iff (kept move (List.mem_cons_self ..))
    rw [List.cons_append]
    by_cases set : move.Sets d method
    · obtain ⟨t, h', rfl⟩ := sets.mp set
      rw [registered_register_iff, lastRegistered_register_iff]
      constructor
      · exact .inl
      · rintro (same | ⟨none, _⟩)
        · exact same
        · exact absurd (List.mem_cons_self ..) (none t h')
    · have other (t : ThreadId) (h' : H) : move ≠ .applied t (.register d method h') :=
        fun same => set (sets.mpr ⟨t, h', same⟩)
      rw [registered_cons_iff set, lastRegistered_cons_iff other, rest]
      have none : (∀ t h', .applied t (.register d method h') ∉ move :: later) ↔
          ∀ t h', .applied t (.register d method h') ∉ later := by
        simp [Ne.symm (other _ _)]
      rw [none]

theorem registered_after_copy_iff {source : Target} {name : String} {t : ThreadId}
    {later earlier : List (Move H)} (kept : ∀ move ∈ later, ¬ move.Replaces (.named name)) :
    Registered method h (.named name) (later ++ .applied t (.copy source name) :: earlier) ↔
      LastRegistered method h (.named name) later ∨
        (∀ u h', .applied u (.register (.named name) method h') ∉ later) ∧
          Registered method h source earlier := by
  rw [registered_append_iff kept, registered_copy_iff]

theorem registered_after_create_iff {name : String} {t : ThreadId} {later earlier : List (Move H)}
    (kept : ∀ move ∈ later, ¬ move.Replaces (.named name)) :
    Registered method h (.named name) (later ++ .applied t (.create name) :: earlier) ↔
      LastRegistered method h (.named name) later := by
  rw [registered_append_iff kept]
  constructor
  · rintro (last | ⟨_, registered⟩)
    · exact last
    · exact absurd registered not_registered_create
  · exact .inl

/-- The app's dispatcher is never made anew. -/
theorem registered_shared_iff {moves : List (Move H)} :
    Registered method h .shared moves ↔ LastRegistered method h .shared moves := by
  have kept : ∀ move ∈ moves, ¬ move.Replaces .shared := by
    intro move _ replaces
    cases move with
    | applied t e => cases e <;> cases replaces
    | entered t c => exact replaces
    | landed t c o => exact replaces
  rw [← List.append_nil moves, registered_append_iff kept, List.append_nil]
  constructor
  · rintro (last | ⟨_, registered⟩)
    · exact last
    · cases registered
  · exact .inl

end WalletBridge.Api
