import WalletBridge.Api.Run
import WalletBridge.Api.Schedule

namespace WalletBridge.Api

variable {H : Type}

def Move.after (code : Code H) (m : Machine H) : Move H → Machine H
  | .applied t e => (m.apply t e).2
  | .entered t c => (m.enter code t c).1
  | .landed t _ o => (m.land t o).2

def Machine.replay (code : Code H) : List (Move H) → Machine H
  | [] => .initial
  | move :: moves => move.after code (replay code moves)

theorem Task.machine_of_step {code : Code H} {k next : Task H} {m after : Machine H} {move : Move H}
    (stepped : k.step code m = some (move, next, after)) : after = move.after code m := by
  obtain ⟨t, program, frames⟩ := k
  cases program with
  | effect on e rest =>
    cases stepped
    rfl
  | call on c rest =>
    cases stepped
    rfl
  | done o =>
    cases frames with
    | nil => cases stepped
    | cons f frames =>
      cases stepped
      rfl

namespace World

theorem step_moves (code : Code H) (w : World H) (c : Choice H) :
    (w.step code c).machine = w.machine ∧ (w.step code c).moves = w.moves ∨
    ∃ move, (w.step code c).machine = move.after code w.machine ∧
      (w.step code c).moves = move :: w.moves := by
  cases c with
  | start t p => exact .inl ⟨rfl, rfl⟩
  | resume i =>
    cases chosen : w.tasks[i]? with
    | none => exact .inl (by simp [step, chosen])
    | some k =>
      cases stepped : k.step code w.machine with
      | none => exact .inl (by simp [step, chosen, stepped])
      | some result =>
        obtain ⟨move, next, after⟩ := result
        have machine := Task.machine_of_step stepped
        exact .inr ⟨move, by simp [step, chosen, stepped, machine], by simp [step, chosen, stepped]⟩

theorem machine_step {code : Code H} {w : World H} (replayed : w.machine = .replay code w.moves)
    (c : Choice H) : (w.step code c).machine = .replay code (w.step code c).moves := by
  rcases step_moves code w c with ⟨machine, moves⟩ | ⟨move, machine, moves⟩
  · rw [machine, moves, replayed]
  · rw [machine, moves, replayed, Machine.replay]

/-- Whatever the order of the steps, the machine is what they made of it. -/
theorem machine_run (code : Code H) (choices : List (Choice H)) :
    (initial.run code choices).machine = .replay code (initial.run code choices).moves := by
  have from_any (w : World H) (replayed : w.machine = .replay code w.moves) :
      (w.run code choices).machine = .replay code (w.run code choices).moves := by
    induction choices generalizing w with
    | nil => exact replayed
    | cons c choices ih => exact ih _ (machine_step replayed c)
  exact from_any initial rfl

end World

inductive Task.Reaches (code : Code H) : Task H → Machine H → Task H → Machine H → Prop
  | refl (k : Task H) (m : Machine H) : Reaches code k m k m
  | step {k next last : Task H} {m after final : Machine H} {move : Move H}
      (stepped : k.step code m = some (move, next, after)) (rest : Reaches code next after last final) :
      Reaches code k m last final

theorem Task.Reaches.trans {code : Code H} {k next last : Task H} {m after final : Machine H}
    (first : Reaches code k m next after) (second : Reaches code next after last final) :
    Reaches code k m last final := by
  induction first with
  | refl => exact second
  | step stepped _ ih => exact .step stepped (ih second)

def Machine.Follows (code : Code H)
    (answer : ThreadId → (c : Call H) → Machine H → Option (c.Reply × Machine H)) : Prop :=
  ∀ t c m r after, answer t c m = some (r, after) → ∀ u (next : c.Reply → Act H Bytes) frames,
    Task.Reaches code ⟨t, (m.enter code t c).2, ⟨u, c, next⟩ :: frames⟩ (m.enter code t c).1
      ⟨u, next r, frames⟩ after

theorem Act.reaches_of_run {code : Code H}
    {answer : ThreadId → (c : Call H) → Machine H → Option (c.Reply × Machine H)}
    (follows : Machine.Follows code answer) {t : ThreadId} {p : Act H Bytes} {m final : Machine H}
    {o : Outcome Bytes} (ran : p.run answer t m = some (o, final)) (frames : List (Frame H)) :
    Task.Reaches code ⟨t, p, frames⟩ m ⟨t, .done o, frames⟩ final := by
  induction p generalizing m with
  | done _ =>
    cases ran
    exact .refl _ _
  | effect on e next ih => exact .step rfl (ih _ ran)
  | call on c next ih =>
    rw [run] at ran
    cases found : answer (on.getD t) c m with
    | none =>
      rw [found] at ran
      cases ran
    | some reply =>
      obtain ⟨r, after⟩ := reply
      rw [found] at ran
      have inner := follows (on.getD t) c m r after found t next frames
      exact .step rfl (inner.trans (ih r ran))

/-- Induction on the depth: inside of a call only shallower ones are answered. -/
theorem Machine.follows_call (code : Code H) (depth : Nat) :
    Machine.Follows code (Machine.call code depth) := by
  induction depth with
  | zero =>
    intro t c m r after answered
    cases answered
  | succ depth ih =>
    intro t c m r after answered u next frames
    rw [call] at answered
    cases ran : (m.enter code t c).2.run (call code depth) t (m.enter code t c).1 with
    | none =>
      simp only [ran] at answered
      cases answered
    | some result =>
      obtain ⟨o, landing⟩ := result
      simp only [ran] at answered
      cases answered
      exact (Act.reaches_of_run ih ran (⟨u, c, next⟩ :: frames)).trans (.step rfl (.refl _ _))

theorem Act.run_mono {α : Type}
    {answer more : ThreadId → (c : Call H) → Machine H → Option (c.Reply × Machine H)}
    (agree : ∀ t c m result, answer t c m = some result → more t c m = some result)
    {t : ThreadId} {p : Act H α} {m : Machine H} {result : Outcome α × Machine H}
    (ran : p.run answer t m = some result) : p.run more t m = some result := by
  induction p generalizing m with
  | done _ => exact ran
  | effect on e next ih => exact ih _ ran
  | call on c next ih =>
    rw [run] at ran ⊢
    cases found : answer (on.getD t) c m with
    | none =>
      rw [found] at ran
      cases ran
    | some reply =>
      rw [found] at ran
      rw [agree _ _ _ _ found]
      exact ih _ ran

theorem Machine.call_succ (code : Code H) (depth : Nat) (t : ThreadId) (c : Call H) (m : Machine H)
    (result : c.Reply × Machine H) (answered : Machine.call code depth t c m = some result) :
    Machine.call code (depth + 1) t c m = some result := by
  induction depth generalizing t c m with
  | zero => cases answered
  | succ depth ih =>
    rw [call] at answered ⊢
    cases ran : (m.enter code t c).2.run (call code depth) t (m.enter code t c).1 with
    | none =>
      simp only [ran] at answered
      cases answered
    | some _ =>
      simp only [ran] at answered
      simp only [Act.run_mono ih ran]
      exact answered

theorem Act.exec_mono {α : Type} {code : Code H} {depth deeper : Nat} (le : depth ≤ deeper)
    {t : ThreadId} {p : Act H α} {m : Machine H} {result : Outcome α × Machine H}
    (ran : p.exec code depth t m = some result) : p.exec code deeper t m = some result := by
  induction le with
  | refl => exact ran
  | step _ ih => exact run_mono (Machine.call_succ code _) ih

def Act.Ends (code : Code H) (t : ThreadId) (p : Act H Bytes) (m : Machine H) (o : Outcome Bytes)
    (final : Machine H) : Prop :=
  ∃ depth, p.exec code depth t m = some (o, final)

theorem Act.Ends.call {code : Code H} {t : ThreadId} {on : Option ThreadId} {c : Call H}
    {next : c.Reply → Act H Bytes} {m landing final : Machine H} {o result : Outcome Bytes}
    (body : Act.Ends code (on.getD t) (m.enter code (on.getD t) c).2
      (m.enter code (on.getD t) c).1 o landing)
    (rest : Act.Ends code t (next (c.reply (landing.land (on.getD t) o).1))
      (landing.land (on.getD t) o).2 result final) :
    Act.Ends code t (.call on c next) m result final := by
  obtain ⟨inner, body⟩ := body
  obtain ⟨outer, rest⟩ := rest
  refine ⟨max inner outer + 1, ?_⟩
  have body := exec_mono (Nat.le_max_left inner outer) body
  have rest := exec_mono (Nat.le_succ_of_le (Nat.le_max_right inner outer)) rest
  have answered : Machine.call code (max inner outer + 1) (on.getD t) c m =
      some (c.reply (landing.land (on.getD t) o).1, (landing.land (on.getD t) o).2) := by
    rw [Machine.call]
    unfold exec at body
    simp only [body]
  unfold exec at rest ⊢
  rw [run, answered]
  exact rest

/-- A program and those that wait on it all end, one after the other. -/
inductive Task.Ends (code : Code H) : List (Frame H) → ThreadId → Act H Bytes → Machine H →
    Outcome Bytes → Machine H → Prop
  | last {t : ThreadId} {p : Act H Bytes} {m final : Machine H} {o : Outcome Bytes}
      (ends : p.Ends code t m o final) : Ends code [] t p m o final
  | inner {f : Frame H} {frames : List (Frame H)} {t : ThreadId} {p : Act H Bytes}
      {m landing final : Machine H} {o result : Outcome Bytes} (ends : p.Ends code t m o landing)
      (rest : Ends code frames f.thread (f.next (f.call.reply (landing.land t o).1))
        (landing.land t o).2 result final) : Ends code (f :: frames) t p m result final

theorem Task.Ends.before {code : Code H} {frames : List (Frame H)} {t : ThreadId}
    {p before : Act H Bytes} {m earlier final : Machine H} {result : Outcome Bytes}
    (ends : Ends code frames t p m result final)
    (leads : ∀ {o after}, p.Ends code t m o after → before.Ends code t earlier o after) :
    Ends code frames t before earlier result final := by
  cases ends with
  | last ends => exact .last (leads ends)
  | inner ends rest => exact .inner (leads ends) rest

theorem Task.ends_of_step {code : Code H} {k next : Task H} {m after final : Machine H}
    {move : Move H} {result : Outcome Bytes} (stepped : k.step code m = some (move, next, after))
    (ends : Ends code next.frames next.thread next.program after result final) :
    Ends code k.frames k.thread k.program m result final := by
  obtain ⟨t, program, frames⟩ := k
  cases program with
  | effect on e rest =>
    cases stepped
    exact ends.before fun ⟨depth, ran⟩ => ⟨depth, ran⟩
  | call on c rest =>
    cases stepped
    cases ends with
    | inner body ends => exact ends.before fun rest => .call body rest
  | done o =>
    cases frames with
    | nil => cases stepped
    | cons f frames =>
      cases stepped
      exact .inner ⟨0, rfl⟩ ends

theorem Task.ends_of_reaches {code : Code H} {k : Task H} {m final : Machine H} {u : ThreadId}
    {o : Outcome Bytes} (reaches : Reaches code k m ⟨u, .done o, []⟩ final) :
    Ends code k.frames k.thread k.program m o final := by
  generalize ending : (⟨u, .done o, []⟩ : Task H) = last at reaches
  induction reaches with
  | refl k m =>
    subst ending
    exact .last ⟨0, rfl⟩
  | step stepped _ ih => exact ends_of_step stepped (ih ending)

/-- A task by itself ends just as the evaluation of its program does, with the same machine. -/
theorem Act.exec_iff_reaches {code : Code H} {t : ThreadId} {p : Act H Bytes} {m final : Machine H}
    {o : Outcome Bytes} :
    (∃ depth, p.exec code depth t m = some (o, final)) ↔
      Task.Reaches code ⟨t, p, []⟩ m ⟨t, .done o, []⟩ final := by
  constructor
  · intro ⟨depth, ran⟩
    exact reaches_of_run (Machine.follows_call code depth) ran []
  · intro reaches
    cases Task.ends_of_reaches reaches with
    | last ends => exact ends

namespace World

theorem run_of_reaches {code : Code H} {k next : Task H} {m after : Machine H}
    (reaches : Task.Reaches code k m next after) {w : World H} {i : Nat}
    (among : w.tasks[i]? = some k) (machine : w.machine = m) :
    ∃ choices, (w.run code choices).machine = after ∧ (w.run code choices).tasks[i]? = some next := by
  induction reaches generalizing w with
  | refl k m => exact ⟨[], machine, among⟩
  | @step k next last m after final move stepped _ ih =>
    have resumed : w.step code (.resume i) = ⟨after, w.tasks.set i next, move :: w.moves⟩ := by
      simp [step, among, machine, stepped]
    have bound : i < w.tasks.length := (List.getElem?_eq_some_iff.mp among).1
    obtain ⟨choices, ended, found⟩ :=
      ih (w := ⟨after, w.tasks.set i next, move :: w.moves⟩) (List.getElem?_set_self bound) rfl
    refine ⟨.resume i :: choices, ?_, ?_⟩
    · rw [run, List.foldl_cons, resumed]
      exact ended
    · rw [run, List.foldl_cons, resumed]
      exact found

/-- The evaluation of a program is one of the runs. -/
theorem run_of_exec {code : Code H} {depth : Nat} {t : ThreadId} {p : Act H Bytes}
    {final : Machine H} {o : Outcome Bytes} (ran : p.exec code depth t .initial = some (o, final)) :
    ∃ choices, (initial.run code choices).machine = final := by
  have reaches := Act.exec_iff_reaches.mp ⟨depth, ran⟩
  obtain ⟨choices, ended, _⟩ :=
    run_of_reaches reaches (w := initial.step code (.start t p)) (i := 0) rfl rfl
  exact ⟨.start t p :: choices, ended⟩

end World

end WalletBridge.Api
