import WalletBridge.Demo.Handler
import WalletBridge.Proofs.Api.Simulation
import WalletBridge.Api.Schedule

namespace WalletBridge.Api

variable {H α : Type}

def Effect.switches : Effect H → Bool
  | .setDebug _ => true
  | _ => false

theorem Effect.setDebug_or (e : Effect H) : (∃ on, e = .setDebug on) ∨ e.switches = false := by
  cases e with
  | setDebug on => exact .inl ⟨on, rfl⟩
  | _ => exact .inr rfl

namespace Act

def quiet : Act H α → Act H α
  | .done o => .done o
  | .effect _ (.setDebug _) next => (next ()).quiet
  | .effect on e next => .effect on e fun r => (next r).quiet
  | .call on c next => .call on c fun r => (next r).quiet

theorem quiet_effect {on : Option ThreadId} {e : Effect H} {next : e.Reply → Act H α}
    (other : e.switches = false) :
    (effect on e next).quiet = effect on e fun r => (next r).quiet := by
  cases e with
  | setDebug b => cases other
  | _ => rfl

end Act

def Code.quiet (code : Code H) : Code H :=
  fun h input => (code h input).quiet

def Happening.isDump : Happening H → Bool
  | .dumped _ => true
  | _ => false

namespace Machine

def undumped (m : Machine H) : List (Event H) :=
  m.journal.filter fun e => !e.what.isDump

def plainLog (m : Machine H) : List String :=
  (m.undumped.filterMap fun e => e.what.line?).reverse

/-- The machine as it were if debugging had always been off. -/
def quiet (m : Machine H) : Machine H :=
  { m with debug := false, journal := m.undumped }

theorem fields_of_quiet {m m' : Machine H} (same : m.quiet = m'.quiet) :
    m.tables = m'.tables ∧ m.config = m'.config ∧ m.lastError = m'.lastError ∧
      m.undumped = m'.undumped := by
  simpa only [quiet, Machine.mk.injEq, true_and] using same

theorem quiet_record (m : Machine H) (t : ThreadId) {what : Happening H}
    (plain : what.isDump = false) : (m.record t what).quiet = m.quiet.record t what := by
  have kept : (m.record t what).undumped = ⟨t, what⟩ :: m.undumped := by
    simp [undumped, record, plain]
  simp only [quiet, kept]
  rfl

theorem quiet_dump (m : Machine H) (t : ThreadId) (text : String) :
    (m.dump t text).quiet = m.quiet := by
  unfold dump
  split
  · have dropped : (m.record t (.dumped text)).undumped = m.undumped := by
      simp [undumped, record, Happening.isDump]
    simp only [quiet, dropped]
    rfl
  · rfl

theorem lastErrorMessage_quiet (m : Machine H) (t : ThreadId) :
    m.quiet.lastErrorMessage t = ((m.lastErrorMessage t).1, (m.lastErrorMessage t).2.quiet) := by
  have same : m.quiet.lastError t = m.lastError t := rfl
  unfold lastErrorMessage
  rw [same]
  cases m.lastError t with
  | none => rfl
  | some error => exact Prod.ext rfl (m.quiet_dump t _).symm

theorem apply_quiet (m : Machine H) (t : ThreadId) {e : Effect H} (other : e.switches = false) :
    m.quiet.apply t e = ((m.apply t e).1, (m.apply t e).2.quiet) := by
  cases e with
  | setDebug on => cases other
  | lastErrorMessage => exact m.lastErrorMessage_quiet t
  | encode s r => exact Prod.ext rfl (m.quiet_dump t _).symm
  | resolve a =>
    have plain : (resolution a : Happening H).isDump = false := by
      unfold resolution
      split <;> rfl
    simp only [apply, m.quiet_record t plain]
  | _ => rfl

theorem land_quiet (m : Machine H) (t : ThreadId) (o : Outcome Bytes) :
    m.quiet.land t o = ((m.land t o).1, (m.land t o).2.quiet) := by
  cases o <;> rfl

theorem enter_quiet (code : Code H) (m : Machine H) (t : ThreadId) (c : Call H) :
    m.quiet.enter code.quiet t c = ((m.enter code t c).1.quiet, (m.enter code t c).2.quiet) := by
  cases c.entry with
  | @served d method param asks other enters =>
    rw [enters, enters]
    have same : m.quiet.tables = m.tables := rfl
    rw [same]
    cases m.tables d method <;> rfl
  | rejected f enters | unreadable e asks failed enters | initialising p asks parsed enters
  | direct h input enters =>
    rw [enters, enters]
    rfl

end Machine

theorem Act.run_quiet
    {answer quietly : ThreadId → (c : Call H) → Machine H → Option (c.Reply × Machine H)}
    (answers : ∀ t c m, quietly t c m.quiet = (answer t c m).map (Prod.map id Machine.quiet))
    (t : ThreadId) (p : Act H α) (m : Machine H) :
    p.quiet.run quietly t m.quiet = (p.run answer t m).map (Prod.map id Machine.quiet) := by
  induction p generalizing m with
  | done o => rfl
  | effect on e next ih =>
    rcases e.setDebug_or with ⟨debug, rfl⟩ | other
    · -- Without debugging there is no such step, and the machines differ in the flag alone.
      exact ih () { m with debug }
    · rw [quiet_effect other, run, run, Machine.apply_quiet _ _ other]
      exact ih _ _
  | call on c next ih =>
    rw [quiet, run, run, answers]
    cases answer (on.getD t) c m with
    | none => rfl
    | some reply => exact ih _ _

namespace Machine

theorem serve_quiet {code : Code H} {depth : Nat}
    (answers : ∀ t c m, call code.quiet depth t c m.quiet =
      (call code depth t c m).map (Prod.map id quiet))
    (t : ThreadId) (m : Machine H) (body : Act H Bytes) :
    serve code.quiet depth t (m.quiet, body.quiet) =
      (serve code depth t (m, body)).map (Prod.map id quiet) := by
  simp only [serve, Act.run_quiet answers]
  cases body.run (call code depth) t m with
  | none => rfl
  | some result => exact congrArg some (land_quiet result.2 t result.1)

/-- A call is answered alike without debugging, whatever the calls inside of it switch on or off. -/
theorem call_quiet (code : Code H) (depth : Nat) (t : ThreadId) (c : Call H) (m : Machine H) :
    call code.quiet depth t c m.quiet = (call code depth t c m).map (Prod.map id quiet) := by
  induction depth generalizing t c m with
  | zero => rfl
  | succ depth ih =>
    rw [call_succ_eq, call_succ_eq, enter_quiet, serve_quiet ih]
    cases serve code depth t (m.enter code t c) <;> rfl

theorem apply_of_quiet {m m' : Machine H} (same : m.quiet = m'.quiet) (t : ThreadId) (e : Effect H) :
    (m.apply t e).1 = (m'.apply t e).1 ∧ (m.apply t e).2.quiet = (m'.apply t e).2.quiet := by
  rcases e.setDebug_or with ⟨debug, rfl⟩ | other
  · exact ⟨rfl, same⟩
  · have quietly := m.apply_quiet t other
    rw [same, m'.apply_quiet t other] at quietly
    obtain ⟨reply, after⟩ := Prod.mk.inj quietly
    exact ⟨reply.symm, after.symm⟩

theorem land_of_quiet {m m' : Machine H} (same : m.quiet = m'.quiet) (t : ThreadId)
    (o : Outcome Bytes) : (m.land t o).2.quiet = (m'.land t o).2.quiet := by
  have quietly := m.land_quiet t o
  rw [same, m'.land_quiet t o] at quietly
  exact (Prod.mk.inj quietly).2.symm

theorem enter_of_quiet (code : Code H) {m m' : Machine H} (same : m.quiet = m'.quiet) (t : ThreadId)
    (c : Call H) :
    (m.enter code t c).2 = (m'.enter code t c).2 ∧
      (m.enter code t c).1.quiet = (m'.enter code t c).1.quiet := by
  obtain ⟨tables, _⟩ := fields_of_quiet same
  have quietly := m.enter_quiet code t c
  rw [same, m'.enter_quiet code t c] at quietly
  exact ⟨enter_snd_congr tables c, (Prod.mk.inj quietly).1.symm⟩

theorem call_of_quiet {code code' : Code H} (programs : code.quiet = code'.quiet) {m m' : Machine H}
    (same : m.quiet = m'.quiet) (depth : Nat) (t : ThreadId) (c : Call H) :
    Matches (fun m m' => m.quiet = m'.quiet) (call code depth t c m) (call code' depth t c m') := by
  have answers := call_quiet code depth t c m
  rw [programs, same, call_quiet code' depth t c m'] at answers
  cases left : call code depth t c m with
  | none =>
    rw [left, Option.map_none, Option.map_eq_none_iff] at answers
    rw [answers]
    exact .none
  | some reply =>
    rw [left, Option.map_some, Option.map_eq_some_iff] at answers
    obtain ⟨reply', right, equal⟩ := answers
    obtain ⟨sameReply, after⟩ := Prod.mk.inj equal
    rw [right]
    exact .some ⟨sameReply.symm, after.symm⟩

end Machine

def Move.switches : Move H → Bool
  | .applied _ e => e.switches
  | _ => false

def Frame.quiet (f : Frame H) : Frame H :=
  ⟨f.thread, f.call, fun r => (f.next r).quiet⟩

namespace Task

def quiet (k : Task H) : Task H :=
  ⟨k.thread, k.program.quiet, k.frames.map Frame.quiet⟩

def switches (k : Task H) : Bool :=
  match k.program with
  | .effect _ e _ => e.switches
  | _ => false

theorem step_of_switches (code : Code H) {k : Task H} (switches : k.switches = true) (m : Machine H) :
    ∃ move next after, k.step code m = some (move, next, after) ∧ move.switches = true ∧
      next.quiet = k.quiet ∧ after.quiet = m.quiet := by
  obtain ⟨t, program, frames⟩ := k
  cases program with
  | done o => cases switches
  | call on c next => cases switches
  | effect on e next =>
    rcases e.setDebug_or with ⟨debug, rfl⟩ | other
    · exact ⟨_, _, _, rfl, rfl, rfl, rfl⟩
    · exact absurd switches (by simp [Task.switches, other])

theorem step_quiet (code : Code H) {k : Task H} (other : k.switches = false) (m : Machine H) :
    k.quiet.step code.quiet m.quiet =
      (k.step code m).map fun (move, next, after) => (move, next.quiet, after.quiet) := by
  obtain ⟨t, program, frames⟩ := k
  cases program with
  | effect on e next =>
    have other : e.switches = false := other
    simp only [quiet, step, Act.quiet_effect other, Machine.apply_quiet _ _ other]
    rfl
  | call on c next =>
    simp only [quiet, step, Act.quiet, Machine.enter_quiet]
    rfl
  | done o =>
    cases frames with
    | nil => rfl
    | cons f frames =>
      simp only [quiet, step, Act.quiet, List.map_cons, Machine.land_quiet]
      rfl

theorem switches_of_step {code : Code H} {k next : Task H} {m after : Machine H} {move : Move H}
    (stepped : k.step code m = some (move, next, after)) : move.switches = k.switches := by
  obtain ⟨t, program, frames⟩ := k
  cases program with
  | effect on e rest =>
    cases stepped
    rfl
  | call on c rest =>
    cases stepped
    rfl
  | done o =>
    cases frames with
    | nil => cases stepped
    | cons f frames =>
      cases stepped
      rfl

theorem step_of_quiet (code : Code H) {m m' : Machine H} (same : m.quiet = m'.quiet) (k : Task H) :
    (k.step code m).map (fun (move, next, after) => (move, next, after.quiet)) =
      (k.step code m').map fun (move, next, after) => (move, next, after.quiet) := by
  obtain ⟨t, program, frames⟩ := k
  cases program with
  | effect on e next =>
    obtain ⟨reply, after⟩ := Machine.apply_of_quiet same (on.getD t) e
    simp only [step, Option.map_some, reply, after]
  | call on c next =>
    obtain ⟨body, after⟩ := Machine.enter_of_quiet code same (on.getD t) c
    simp only [step, Option.map_some, body, after]
  | done o =>
    cases frames with
    | nil => rfl
    | cons f frames =>
      have after := Machine.land_of_quiet same t o
      simp only [step, Option.map_some, Machine.land_fst m m' t o, after]

end Task

def Choice.quiet : Choice H → Choice H
  | .start t p => .start t p.quiet
  | .resume i => .resume i

namespace World

def quiet (w : World H) : World H :=
  ⟨w.machine.quiet, w.tasks.map Task.quiet, w.moves.filter fun move => !move.switches⟩

def switches (w : World H) : Choice H → Bool
  | .start .. => false
  | .resume i => (w.tasks[i]?).any Task.switches

def operations (code : Code H) (w : World H) : List (Choice H) → List (Choice H)
  | [] => []
  | c :: choices =>
    if w.switches c then (w.step code c).operations code choices
    else c.quiet :: (w.step code c).operations code choices

theorem quiet_step_of_switches (code : Code H) {w : World H} {c : Choice H}
    (switches : w.switches c = true) : (w.step code c).quiet = w.quiet := by
  cases c with
  | start t p => cases switches
  | resume i =>
    obtain ⟨k, chosen, switches⟩ : ∃ k, w.tasks[i]? = some k ∧ k.switches = true := by
      simpa [World.switches, Option.any_eq_true] using switches
    obtain ⟨move, next, after, stepped, switched, same, machine⟩ :=
      Task.step_of_switches code switches w.machine
    have tasks : (w.tasks.set i next).map Task.quiet = w.tasks.map Task.quiet := by
      obtain ⟨bound, found⟩ := List.getElem?_eq_some_iff.mp chosen
      rw [List.map_set, same, ← found, ← List.map_set, List.set_getElem_self]
    simp [step, chosen, stepped, quiet, machine, tasks, switched]

theorem quiet_step (code : Code H) {w : World H} {c : Choice H} (other : w.switches c = false) :
    (w.step code c).quiet = w.quiet.step code.quiet c.quiet := by
  cases c with
  | start t p => simp [step, quiet, Choice.quiet, Task.quiet]
  | resume i =>
    cases chosen : w.tasks[i]? with
    | none => simp [step, chosen, quiet, Choice.quiet]
    | some k =>
      have other : k.switches = false := by simpa [World.switches, chosen] using other
      have steps := Task.step_quiet code other w.machine
      cases stepped : k.step code w.machine with
      | none =>
        rw [stepped] at steps
        simp [step, chosen, stepped, quiet, Choice.quiet, steps]
      | some result =>
        obtain ⟨move, next, after⟩ := result
        have plain := (Task.switches_of_step stepped).trans other
        rw [stepped] at steps
        simp [step, chosen, stepped, quiet, Choice.quiet, steps, plain, List.map_set]

/-- What a run does without debugging is what its other steps do by themselves. -/
theorem quiet_run (code : Code H) (w : World H) (choices : List (Choice H)) :
    (w.run code choices).quiet = w.quiet.run code.quiet (w.operations code choices) := by
  induction choices generalizing w with
  | nil => rfl
  | cons c choices ih =>
    change ((w.step code c).run code choices).quiet = _
    rw [ih, operations]
    cases switches : w.switches c with
    | true => rw [quiet_step_of_switches code switches, if_pos rfl]
    | false =>
      rw [quiet_step code switches, if_neg Bool.false_ne_true]
      rfl

def withDebug (w : World H) (debug : Bool) : World H :=
  { w with machine := { w.machine with debug } }

theorem switches_of_tasks {w w' : World H} (tasks : w.tasks = w'.tasks) (c : Choice H) :
    w.switches c = w'.switches c := by
  cases c with
  | start t p => rfl
  | resume i => rw [switches, switches, tasks]

theorem step_of_quiet (code : Code H) {w w' : World H} (tasks : w.tasks = w'.tasks)
    (machine : w.machine.quiet = w'.machine.quiet) (c : Choice H) :
    (w.step code c).tasks = (w'.step code c).tasks ∧
      (w.step code c).machine.quiet = (w'.step code c).machine.quiet := by
  cases c with
  | start t p => exact ⟨by simp only [step, tasks], machine⟩
  | resume i =>
    cases chosen : w.tasks[i]? with
    | none => simp [step, chosen, ← tasks, machine]
    | some k =>
      have steps := Task.step_of_quiet code machine k
      cases left : k.step code w.machine with
      | none =>
        rw [left, Option.map_none, eq_comm, Option.map_eq_none_iff] at steps
        simp [step, chosen, ← tasks, left, steps, machine]
      | some result =>
        rw [left, Option.map_some, eq_comm, Option.map_eq_some_iff] at steps
        obtain ⟨result', right, equal⟩ := steps
        obtain ⟨_, next, after⟩ : _ ∧ result'.2.1 = result.2.1 ∧
            result'.2.2.quiet = result.2.2.quiet := by
          simpa only [Prod.mk.injEq] using equal
        simp [step, chosen, ← tasks, left, right, next, after]

theorem operations_of_quiet (code : Code H) {w w' : World H} (tasks : w.tasks = w'.tasks)
    (machine : w.machine.quiet = w'.machine.quiet) (choices : List (Choice H)) :
    w.operations code choices = w'.operations code choices := by
  induction choices generalizing w w' with
  | nil => rfl
  | cons c choices ih =>
    obtain ⟨tasks', machine'⟩ := step_of_quiet code tasks machine c
    rw [operations, operations, switches_of_tasks tasks c, ih tasks' machine']

/-- All that two runs have come to is the same, but for the debug flag, the steps that switch it, and
the dumps of messages in the log. -/
structure Alike (code code' : Code H) (w w' : World H) : Prop where
  replies : ∀ t e, (w.machine.apply t e).1 = (w'.machine.apply t e).1
  calls : ∀ depth t c, Matches (fun m m' => m.quiet = m'.quiet)
    (Machine.call code depth t c w.machine) (Machine.call code' depth t c w'.machine)
  tables : w.machine.tables = w'.machine.tables
  config : w.machine.config = w'.machine.config
  lastError : w.machine.lastError = w'.machine.lastError
  moves : (w.moves.filter fun move => !move.switches) = w'.moves.filter fun move => !move.switches
  tasks : w.tasks.map Task.quiet = w'.tasks.map Task.quiet
  log : w.machine.plainLog = w'.machine.plainLog

theorem alike_of_quiet {code code' : Code H} (programs : code.quiet = code'.quiet) {w w' : World H}
    (same : w.quiet = w'.quiet) : Alike code code' w w' := by
  have machine : w.machine.quiet = w'.machine.quiet := congrArg World.machine same
  obtain ⟨tables, config, lastError, undumped⟩ := Machine.fields_of_quiet machine
  exact {
    replies := fun t e => (Machine.apply_of_quiet machine t e).1
    calls := Machine.call_of_quiet programs machine
    tables
    config
    lastError
    moves := congrArg World.moves same
    tasks := congrArg World.tasks same
    log := by rw [Machine.plainLog, Machine.plainLog, undumped] }

/-- Programs switch debugging on and off but do not see whether it is on, and it shows in the log and
nowhere else. Two runs have come to the same at each point if they differ in the debug flag at their
beginning, or in the steps of programs and handlers that switch it and in nothing else that they did
until then. A run is left if these steps are taken out of one. -/
theorem debug_of_runs (code : Code H) (w : World H) (choices : List (Choice H)) :
    (∀ debug, Alike code code (w.run code choices) ((w.withDebug debug).run code choices)) ∧
    (∀ (code' : Code H) (w' : World H) (choices' : List (Choice H)), code.quiet = code'.quiet →
      w.quiet = w'.quiet → w.operations code choices = w'.operations code' choices' →
      Alike code code' (w.run code choices) (w'.run code' choices')) ∧
    (w.run code choices).quiet = w.quiet.run code.quiet (w.operations code choices) := by
  have alike (code' : Code H) (w' : World H) (choices' : List (Choice H))
      (programs : code.quiet = code'.quiet) (same : w.quiet = w'.quiet)
      (operations : w.operations code choices = w'.operations code' choices') :
      Alike code code' (w.run code choices) (w'.run code' choices') := by
    refine alike_of_quiet programs ?_
    rw [quiet_run, quiet_run, programs, same, operations]
  refine ⟨?_, alike, quiet_run code w choices⟩
  intro debug
  have operations : w.operations code choices = (w.withDebug debug).operations code choices := by
    apply operations_of_quiet <;> rfl
  exact alike code (w.withDebug debug) choices rfl rfl operations

def reporting : Act Demo.Handler Bytes := do
  let _ ← Act.invoke (.guarded (.callThenEcho "zz") [])
  let text ← Act.perform .lastErrorMessage
  return Utf8.encode text

def reportingOff : World Demo.Handler :=
  ⟨.initial, [⟨0, reporting, []⟩], []⟩

/-- Debugging is on at first, the app switches it off, and each handler switches it on again. -/
def reportingOn : World Demo.Handler :=
  ⟨{ Machine.initial with debug := true },
    [⟨0, .effect none (.setDebug false) fun _ => reporting, []⟩], []⟩

def switchingOn : Code Demo.Handler :=
  fun h input => .effect none (.setDebug true) fun _ => Demo.code h input

theorem debug_of_runs_reporting :
    let off := reportingOff.run Demo.code (List.replicate 5 (.resume 0))
    let on := reportingOn.run switchingOn (List.replicate 7 (.resume 0))
    Demo.code.quiet = switchingOn.quiet ∧ reportingOff.quiet = reportingOn.quiet ∧
    reportingOff.operations Demo.code (List.replicate 5 (.resume 0)) =
      reportingOn.operations switchingOn (List.replicate 7 (.resume 0)) ∧
    off.machine.log = off.machine.plainLog ∧ on.machine.log ≠ on.machine.plainLog ∧
    Alike Demo.code switchingOn off on := by
  intro off on
  have programs : Demo.code.quiet = switchingOn.quiet := rfl
  have start : reportingOff.quiet = reportingOn.quiet := rfl
  have operations : reportingOff.operations Demo.code (List.replicate 5 (.resume 0)) =
      reportingOn.operations switchingOn (List.replicate 7 (.resume 0)) := rfl
  have plain : off.machine.log = off.machine.plainLog := by decide +kernel
  have dumped : on.machine.log ≠ on.machine.plainLog := by decide +kernel
  obtain ⟨_, alike, _⟩ := debug_of_runs Demo.code reportingOff (List.replicate 5 (.resume 0))
  exact ⟨programs, start, operations, plain, dumped, alike _ _ _ programs start operations⟩

end World

end WalletBridge.Api
