import WalletBridge.Demo.Handler
import WalletBridge.Proofs.Api.Registration
import WalletBridge.Proofs.Api.Request
import WalletBridge.Proofs.Schema.WireRoundTrip
import WalletBridge.Proofs.Text.Hex

namespace WalletBridge.Api

variable {H : Type} {code : Code H}

/-- `q` is what is left of `p` after some of its steps, with whatever replies. -/
inductive Act.Leads {α : Type} (p : Act H α) : Act H α → Prop
  | refl : Leads p p
  | effect {on : Option ThreadId} {e : Effect H} {next : e.Reply → Act H α}
      (before : Leads p (.effect on e next)) (r : e.Reply) : Leads p (next r)
  | call {on : Option ThreadId} {c : Call H} {next : c.Reply → Act H α}
      (before : Leads p (.call on c next)) (r : c.Reply) : Leads p (next r)

/-- Above the frames `below`, the task is on its way through `body`, perhaps within calls that this
makes. -/
inductive Task.Amid (t : ThreadId) (body : Act H Bytes) (below : List (Frame H)) : Task H → Prop
  | running {rest : Act H Bytes} (left : body.Leads rest) : Amid t body below ⟨t, rest, below⟩
  | waiting {on : Option ThreadId} {c : Call H} {next : c.Reply → Act H Bytes}
      (left : body.Leads (.call on c next)) (u : ThreadId) (p : Act H Bytes)
      (inner : List (Frame H)) : Amid t body below ⟨u, p, inner ++ ⟨t, c, next⟩ :: below⟩

section

variable {t : ThreadId} {body : Act H Bytes} {below : List (Frame H)} {k next : Task H}
  {m after : Machine H} {move : Move H}

/-- The machine has no say in what is left, only in which reply comes. -/
theorem Task.Amid.step (amid : k.Amid t body below)
    (stepped : k.step code m = some (move, next, after)) :
    next.Amid t body below ∨ ∃ o, k = ⟨t, .done o, below⟩ ∧ body.Leads (.done o) := by
  cases amid with
  | @running rest left =>
    cases rest with
    | effect on e rest =>
      cases stepped
      exact .inl (.running (left.effect _))
    | call on c rest =>
      cases stepped
      exact .inl (.waiting left _ _ [])
    | done o => exact .inr ⟨o, rfl, left⟩
  | waiting left u p inner =>
    cases p with
    | effect on e rest =>
      cases stepped
      exact .inl (.waiting left u _ inner)
    | call on c rest =>
      cases stepped
      exact .inl (.waiting left _ _ (⟨u, c, rest⟩ :: inner))
    | done o =>
      cases inner with
      | nil =>
        cases stepped
        exact .inl (.running (left.call _))
      | cons f inner =>
        cases stepped
        exact .inl (.waiting left _ _ inner)

theorem Task.enters {c : Call H} (stepped : k.step code m = some (.entered t c, next, after)) :
    ∃ f, f.call = c ∧ next = ⟨t, (m.enter code t c).2, f :: k.frames⟩ := by
  obtain ⟨u, program, frames⟩ := k
  cases program with
  | effect on e rest => cases stepped
  | call on c' rest =>
    cases stepped
    exact ⟨⟨u, c, rest⟩, rfl, rfl⟩
  | done o =>
    cases frames with
    | nil => cases stepped
    | cons f frames => cases stepped

end

namespace World

variable {w : World H}

/-- A choice leaves all tasks as they are, or takes a step of one of them. -/
theorem step_cases (code : Code H) (w : World H) (choice : Choice H) :
    ((w.step code choice).moves = w.moves ∧
      ∀ (i : Nat) k, w.tasks[i]? = some k → (w.step code choice).tasks[i]? = some k) ∨
    ∃ (i : Nat) (k : Task H) (move : Move H) (next : Task H) (after : Machine H),
      choice = .resume i ∧ w.tasks[i]? = some k ∧
      k.step code w.machine = some (move, next, after) ∧
      w.step code choice = ⟨after, w.tasks.set i next, move :: w.moves⟩ := by
  cases choice with
  | start t p =>
    refine .inl ⟨rfl, ?_⟩
    intro i k found
    have bound := (List.getElem?_eq_some_iff.mp found).1
    exact (List.getElem?_append_left bound).trans found
  | resume i =>
    cases found : w.tasks[i]? with
    | none =>
      refine .inl ⟨by simp [step, found], ?_⟩
      intro j k among
      simpa [step, found] using among
    | some k =>
      cases stepped : k.step code w.machine with
      | none =>
        refine .inl ⟨by simp [step, found, stepped], ?_⟩
        intro j k' among
        simpa [step, found, stepped] using among
      | some result =>
        obtain ⟨move, next, after⟩ := result
        refine .inr ⟨i, k, move, next, after, rfl, found, stepped, ?_⟩
        simp [step, found, stepped]

/-- Whatever happens from here on, the task works its way through `body` on the thread, above the
frames `below`, until it has come to an end of it. -/
def WorksOff (code : Code H) (w : World H) (i : Nat) (t : ThreadId) (body : Act H Bytes)
    (below : List (Frame H)) : Prop :=
  ∀ choices, (∃ k, (w.run code choices).tasks[i]? = some k ∧ k.Amid t body below) ∨
    ∃ before after o, choices = before ++ .resume i :: after ∧ body.Leads (.done o) ∧
      (w.run code before).tasks[i]? = some ⟨t, .done o, below⟩

theorem worksOff_of_amid {i : Nat} {k : Task H} {t : ThreadId} {body : Act H Bytes}
    {below : List (Frame H)} (found : w.tasks[i]? = some k) (amid : k.Amid t body below) :
    w.WorksOff code i t body below := by
  intro choices
  induction choices generalizing w k with
  | nil => exact .inl ⟨k, found, amid⟩
  | cons choice choices ih =>
    -- An end that comes later in the run is an end in the whole of it.
    have later {k : Task H} (found : (w.step code choice).tasks[i]? = some k)
        (amid : k.Amid t body below) :
        (∃ k, (w.run code (choice :: choices)).tasks[i]? = some k ∧ k.Amid t body below) ∨
          ∃ before after o, choice :: choices = before ++ .resume i :: after ∧
            body.Leads (.done o) ∧ (w.run code before).tasks[i]? = some ⟨t, .done o, below⟩ := by
      rcases ih found amid with amid | ⟨before, after, o, rfl, leads, ended⟩
      · exact .inl amid
      · exact .inr ⟨choice :: before, after, o, rfl, leads, ended⟩
    rcases step_cases code w choice with
      ⟨_, kept⟩ | ⟨j, k', move, next, after, rfl, found', stepped, result⟩
    · exact later (kept i k found) amid
    · have bound := (List.getElem?_eq_some_iff.mp found).1
      by_cases here : j = i
      · subst here
        obtain rfl : k = k' := Option.some.inj (found.symm.trans found')
        rcases amid.step stepped with amid | ⟨o, rfl, leads⟩
        · exact later (by simp [result, bound]) amid
        · exact .inr ⟨[], choices, o, rfl, leads, found⟩
      · exact later (by simp [result, List.getElem?_set_ne here, found]) amid

theorem tables_run_iff (code : Code H) (choices : List (Choice H)) {d : Target} {method : Method}
    {h : H} :
    (initial.run code choices).machine.tables d method = some h ↔
      Registered method h d (initial.run code choices).moves := by
  rw [machine_run]
  exact Machine.tables_replay_iff _

theorem entered_of_moves {i : Nat} {t : ThreadId} {c : Call H}
    (entered : (w.step code (.resume i)).moves = .entered t c :: w.moves) :
    ∃ f frames, f.call = c ∧ (w.step code (.resume i)).tasks[i]? =
      some ⟨t, (w.machine.enter code t c).2, f :: frames⟩ := by
  rcases step_cases code w (.resume i) with
    ⟨same, _⟩ | ⟨j, k, move, next, after, chosen, found, stepped, result⟩
  · rw [same] at entered
    exact absurd entered.symm (List.cons_ne_self _ _)
  · cases chosen
    rw [result] at entered
    cases entered
    obtain ⟨f, called, rfl⟩ := Task.enters stepped
    have bound := (List.getElem?_eq_some_iff.mp found).1
    exact ⟨f, k.frames, called, by simp [result, bound]⟩

theorem moves_of_call {i : Nat} {u : ThreadId} {on : Option ThreadId} {c : Call H}
    {next : c.Reply → Act H Bytes} {frames : List (Frame H)}
    (found : w.tasks[i]? = some ⟨u, .call on c next, frames⟩) :
    (w.step code (.resume i)).moves = .entered (on.getD u) c :: w.moves := by
  simp only [step, found, Task.step]

theorem machine_of_moves {choice : Choice H} {move : Move H}
    (replayed : w.machine = .replay code w.moves)
    (moved : (w.step code choice).moves = move :: w.moves) :
    (w.step code choice).machine = move.after code w.machine := by
  rw [machine_step replayed choice, moved, Machine.replay, ← replayed]

theorem isRegistered_run_iff (code : Code H) (choices : List (Choice H)) {d : Target}
    {method : Method} :
    (initial.run code choices).machine.isRegistered d method = true ↔
      method = .init ∨ ∃ h, Registered method h d (initial.run code choices).moves := by
  have entry : ((initial.run code choices).machine.tables d method).isSome ↔
      ∃ h, Registered method h d (initial.run code choices).moves := by
    rw [Option.isSome_iff_exists]
    exact exists_congr fun h => tables_run_iff code choices
  rw [Machine.isRegistered, Bool.or_eq_true, beq_iff_eq, entry]

section

variable {choices : List (Choice H)} {t : ThreadId} {c : Call H} {d : Target} {method : Method}
  {param : Any}

theorem enter_of_registered {h : H} (asks : c.Asks d method param) (served : method ≠ .init)
    (registered : Registered method h d (initial.run code choices).moves) :
    (initial.run code choices).machine.enter code t c =
      ((initial.run code choices).machine.record t (.dispatched method param.typeUrl),
        code h param.value) := by
  rw [Machine.enter_of_asks asks served, (tables_run_iff code choices).mpr registered,
    Machine.handling]

theorem enter_of_unregistered (asks : c.Asks d method param) (served : method ≠ .init)
    (unregistered : ∀ h, ¬ Registered method h d (initial.run code choices).moves) :
    (initial.run code choices).machine.enter code t c =
      ((initial.run code choices).machine.record t (.dispatched method param.typeUrl),
        .fail (.api (.handlerNotRegistered method))) := by
  have missing : (initial.run code choices).machine.tables d method = none := by
    cases entry : (initial.run code choices).machine.tables d method with
    | none => rfl
    | some h => exact absurd ((tables_run_iff code choices).mp entry) (unregistered h)
  rw [Machine.enter_of_asks asks served, missing, Machine.handling]

end

/-- A call that begins runs the handler which its dispatcher has at that moment, or fails if there is
none, and keeps to it whatever is registered before the call ends. The app's dispatcher has what was
registered last on it. A copy has what was registered on it since, and for other methods what the
dispatcher had that it was copied from; a new one has what was registered on it. A registration changes
no other dispatcher. Registered are initialisation and the methods with a handler. -/
theorem handler_table_of_run (code : Code H) (choices : List (Choice H)) :
    let w : World H := initial.run code choices
    (∀ i t c d method param, (w.step code (.resume i)).moves = .entered t c :: w.moves →
      c.Asks d method param → method ≠ .init →
      ∃ body f frames, f.call = c ∧
        (w.step code (.resume i)).tasks[i]? = some ⟨t, body, f :: frames⟩ ∧
        (∀ h, Registered method h d w.moves → body = code h param.value) ∧
        ((∀ h, ¬ Registered method h d w.moves) →
          body = .fail (.api (.handlerNotRegistered method)) ∧
          ∀ depth, (Machine.call code (depth + 1) t c w.machine).map Prod.fst =
            some (c.reply (.error (.api (.handlerNotRegistered method))))) ∧
        (w.step code (.resume i)).WorksOff code i t body (f :: frames)) ∧
    (∀ method h, Registered method h .shared w.moves ↔ LastRegistered method h .shared w.moves) ∧
    (∀ t d name later earlier, w.moves = later ++ .applied t (.copy d name) :: earlier →
      (∀ move ∈ later, ¬ move.Replaces (.named name)) →
      ∀ method h, Registered method h (.named name) w.moves ↔
        LastRegistered method h (.named name) later ∨
          (∀ u h', .applied u (.register (.named name) method h') ∉ later) ∧
            Registered method h d earlier) ∧
    (∀ t name later earlier, w.moves = later ++ .applied t (.create name) :: earlier →
      (∀ move ∈ later, ¬ move.Replaces (.named name)) →
      ∀ method h, Registered method h (.named name) w.moves ↔
        LastRegistered method h (.named name) later) ∧
    (∀ choice t d method h,
      (w.step code choice).moves = .applied t (.register d method h) :: w.moves →
      ∀ d', d' ≠ d → (w.step code choice).machine.tables d' = w.machine.tables d') ∧
    ∀ t d method, (w.machine.apply t (.isRegistered d method)).1 = true ↔
      method = .init ∨ ∃ h, Registered method h d w.moves := by
  intro w
  refine ⟨?_, fun _ _ => registered_shared_iff, ?_, ?_, ?_, fun _ _ _ =>
    isRegistered_run_iff code choices⟩
  · intro i t c d method param entered asks served
    obtain ⟨f, frames, called, found⟩ := entered_of_moves entered
    refine ⟨_, f, frames, called, found, ?_, ?_, worksOff_of_amid found (.running .refl)⟩
    · intro h registered
      exact congrArg Prod.snd (enter_of_registered asks served registered)
    · intro unregistered
      have enters : w.machine.enter code t c =
          (w.machine.record t (.dispatched method param.typeUrl),
            .fail (.api (.handlerNotRegistered method))) :=
        enter_of_unregistered asks served unregistered
      refine ⟨congrArg Prod.snd enters, ?_⟩
      intro depth
      rw [Machine.call_succ_eq, enters]
      rfl
  · intro t d name later earlier split kept method h
    rw [split, registered_after_copy_iff kept]
  · intro t name later earlier split kept method h
    rw [split, registered_after_create_iff kept]
  · intro choice t d method h moved d' other
    rw [machine_of_moves (machine_run code choices) moved]
    exact if_neg other

def replacingRequest : Action where
  method := "verify_derived_key"
  param := some (Message.pack ({ id := "w1", password := "imToken1" } : WalletKeyParam))

def selfReplacing : List (Choice Demo.Handler) :=
  [.start 0 (do
      Act.perform (.register .shared .verifyDerivedKey .reenter)
      let _ ← Act.invoke (.api (Hex.encode (Message.encode replacingRequest)))
      pure []),
    .resume 0]

theorem handler_table_of_run_selfReplacing :
    let w := initial.run Demo.code selfReplacing
    let param := Message.pack ({ id := "w1", password := "imToken1" } : WalletKeyParam)
    let c : Call Demo.Handler := .api (Hex.encode (Message.encode replacingRequest))
    (w.step Demo.code (.resume 0)).moves = .entered 0 c :: w.moves ∧
    (w.run Demo.code [.resume 0, .resume 0]).machine.tables .shared .verifyDerivedKey =
      some .derivedKey ∧
    ∃ f frames, (w.step Demo.code (.resume 0)).WorksOff Demo.code 0 0
      (Demo.code .reenter param.value) (f :: frames) := by
  intro w param c
  have replaced : (w.run Demo.code [.resume 0, .resume 0]).machine.tables .shared .verifyDerivedKey =
      some .derivedKey := by
    decide +kernel
  have known : Message.schemaOf Action ∈ Catalog.all := by decide +kernel
  have bound : (Message.encode replacingRequest).length < 1 <<< 64 := by decide +kernel
  have spelled : Method.parse? "verify_derived_key" = some .verifyDerivedKey := by decide +kernel
  have routed : replacingRequest.route = .ok (.verifyDerivedKey, param) := by
    simp only [Action.route, replacingRequest, spelled, param]
  have asks : c.Asks .shared .verifyDerivedKey param :=
    .hex (Hex.decodeAuto_encode _) (Message.parse_encode known _ bound) routed
  have registered : Registered .verifyDerivedKey .reenter .shared w.moves := .now 0 .shared _
  have calls : w.tasks[0]? = some ⟨0, .call none c fun _ => pure [], []⟩ := rfl
  have entered : (w.step Demo.code (.resume 0)).moves = .entered 0 c :: w.moves :=
    moves_of_call calls
  obtain ⟨entering, _⟩ := handler_table_of_run Demo.code selfReplacing
  obtain ⟨body, f, frames, _, _, runs, _, works⟩ := entering 0 0 c _ _ _ entered asks nofun
  obtain rfl := runs _ registered
  exact ⟨entered, replaced, f, frames, works⟩

end World

end WalletBridge.Api
