import WalletBridge.Proofs.Api.Simulation

namespace WalletBridge.Api

variable {H : Type} {sight : Target → Prop} {base base' : List (Event H)}

def Effect.StaysOn (sight : Target → Prop) : Effect H → Prop
  | .register d _ _ | .isRegistered d _ => sight d
  | .create name => sight (.named name)
  | .copy d name => sight d ∧ sight (.named name)
  | _ => True

def Call.StaysOn (sight : Target → Prop) : Call H → Prop
  | .action d _ | .bytes d _ | .hex d _ => sight d
  | .guarded .. => True

namespace Machine

/-- Nothing differs but dispatchers out of sight, and the journals as far as they were `base` and
`base'`. -/
structure AgreeOn (sight : Target → Prop) (base base' : List (Event H)) (m m' : Machine H) : Prop where
  tables : ∀ d, sight d → m.tables d = m'.tables d
  config : m.config = m'.config
  debug : m.debug = m'.debug
  lastError : m.lastError = m'.lastError
  journal : ∃ since, m.journal = since ++ base ∧ m'.journal = since ++ base'

namespace AgreeOn

variable {m m' : Machine H}

theorem record (agree : AgreeOn sight base base' m m') (t : ThreadId) (what : Happening H) :
    AgreeOn sight base base' (m.record t what) (m'.record t what) := by
  obtain ⟨since, left, right⟩ := agree.journal
  refine ⟨agree.tables, agree.config, agree.debug, agree.lastError, ⟨t, what⟩ :: since, ?_, ?_⟩
  · exact congrArg (List.cons _) left
  · exact congrArg (List.cons _) right

theorem setTable (agree : AgreeOn sight base base' m m') (d : Target) {table table' : Table H}
    (same : table = table') : AgreeOn sight base base' (m.setTable d table) (m'.setTable d table') := by
  refine ⟨?_, agree.config, agree.debug, agree.lastError, agree.journal⟩
  intro other seen
  by_cases here : other = d
  · simp [here, same]
  · simp [here, agree.tables other seen]

theorem setLastError (agree : AgreeOn sight base base' m m') (t : ThreadId) (error : Option String) :
    AgreeOn sight base base' (m.setLastError t error) (m'.setLastError t error) := by
  refine ⟨agree.tables, agree.config, agree.debug, ?_, agree.journal⟩
  simp only [Machine.setLastError, agree.lastError]

theorem dump (agree : AgreeOn sight base base' m m') (t : ThreadId) (text : String) :
    AgreeOn sight base base' (m.dump t text) (m'.dump t text) := by
  unfold Machine.dump
  rw [← agree.debug]
  split
  · exact agree.record t _
  · exact agree

theorem configure (agree : AgreeOn sight base base' m m') (t : ThreadId) (p : InitParam) :
    AgreeOn sight base base' (m.configure t p) (m'.configure t p) := by
  have settled : AgreeOn sight base base' { m with config := .ofParam p }
      { m' with config := .ofParam p } :=
    ⟨agree.tables, rfl, agree.debug, agree.lastError, agree.journal⟩
  exact settled.record t (.configured p)

theorem land (agree : AgreeOn sight base base' m m') (t : ThreadId) (o : Outcome Bytes) :
    AgreeOn sight base base' (m.land t o).2 (m'.land t o).2 := by
  cases o with
  | ok b => exact agree
  | fail f => exact (agree.setLastError t _).record t _
  | panic x => exact (agree.setLastError t _).record t _

theorem lastErrorMessage (agree : AgreeOn sight base base' m m') (t : ThreadId) :
    (m.lastErrorMessage t).1 = (m'.lastErrorMessage t).1 ∧
      AgreeOn sight base base' (m.lastErrorMessage t).2 (m'.lastErrorMessage t).2 := by
  unfold Machine.lastErrorMessage
  rw [← agree.lastError]
  split
  · exact ⟨rfl, agree⟩
  · exact ⟨rfl, agree.dump t _⟩

theorem apply (agree : AgreeOn sight base base' m m') (t : ThreadId) (e : Effect H)
    (stays : e.StaysOn sight) :
    (m.apply t e).1 = (m'.apply t e).1 ∧
      AgreeOn sight base base' (m.apply t e).2 (m'.apply t e).2 := by
  cases e with
  | register d method h =>
    have same := agree.tables d stays
    exact ⟨rfl, (agree.setTable d (by rw [same])).record t _⟩
  | create name => exact ⟨rfl, (agree.setTable _ rfl).record t _⟩
  | copy d name => exact ⟨rfl, (agree.setTable _ (agree.tables d stays.1)).record t _⟩
  | isRegistered d method =>
    have same := agree.tables d stays
    refine ⟨?_, agree⟩
    change m.isRegistered d method = m'.isRegistered d method
    rw [isRegistered, isRegistered, same]
  | lastError => exact ⟨congrFun agree.lastError t, agree⟩
  | lastErrorMessage => exact agree.lastErrorMessage t
  | clearError => exact ⟨rfl, (agree.setLastError t none).record t _⟩
  | config => exact ⟨agree.config, agree⟩
  | setDebug on => exact ⟨rfl, agree.tables, agree.config, rfl, agree.lastError, agree.journal⟩
  | encode s r => exact ⟨rfl, agree.dump t _⟩
  | resolve a => exact ⟨rfl, agree.record t _⟩

theorem enter (code : Code H) (agree : AgreeOn sight base base' m m') (t : ThreadId) (c : Call H)
    (stays : c.StaysOn sight) :
    (m.enter code t c).2 = (m'.enter code t c).2 ∧
      AgreeOn sight base base' (m.enter code t c).1 (m'.enter code t c).1 := by
  cases c.entry with
  | rejected f enters | direct h input enters =>
    rw [enters, enters]
    exact ⟨rfl, agree⟩
  | unreadable e asks failed enters =>
    rw [enters, enters]
    exact ⟨rfl, agree.record t _⟩
  | initialising p asks parsed enters =>
    rw [enters, enters]
    exact ⟨rfl, (agree.record t _).configure t p⟩
  | @served d method param asks other enters =>
    have seen : sight d := by cases asks <;> exact stays
    rw [enters, enters, agree.tables d seen]
    exact ⟨rfl, agree.record t _⟩

end AgreeOn

end Machine

theorem Simulation.agreeOn {code : Code H}
    (known : code.Within (Effect.StaysOn sight) (Call.StaysOn sight)) :
    Simulation code (Effect.StaysOn sight) (Call.StaysOn sight)
      (Machine.AgreeOn sight base base') where
  known := known
  apply agree := agree.apply
  enter agree := agree.enter code
  land agree := agree.land

end WalletBridge.Api
