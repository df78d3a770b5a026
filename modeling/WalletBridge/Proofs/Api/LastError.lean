import WalletBridge.Demo.Handler
import WalletBridge.Proofs.Api.Reporting
import WalletBridge.Proofs.Api.Request
import WalletBridge.Proofs.Api.Schedule
import WalletBridge.Proofs.Schema.WireRoundTrip
import WalletBridge.Proofs.Text.Hex

namespace WalletBridge.Api

variable {H : Type}

def Outcome.failure? {α : Type} : Outcome α → Option String
  | .ok _ => none
  | .fail f => some f.text
  | .panic (.text message) => some message
  | .panic .unknown => some "unknown_panic"

def Move.verdict : Move H → Option (Option String)
  | .landed _ _ o => o.failure?.map some
  | .applied _ .clearError => some none
  | _ => none

/-- The failure on a thread that came last and was not cleared since, from the steps of a run with
the latest first. -/
def lastFailure (t : ThreadId) (moves : List (Move H)) : Option String :=
  (moves.findSome? fun move => if move.thread = t then move.verdict else none).join

theorem lastFailure_cons (t : ThreadId) (move : Move H) (moves : List (Move H)) :
    lastFailure t (move :: moves) =
      if move.thread = t then move.verdict.getD (lastFailure t moves) else lastFailure t moves := by
  unfold lastFailure
  rw [List.findSome?_cons]
  by_cases here : move.thread = t
  · simp only [here, if_true]
    cases move.verdict <;> rfl
  · simp only [here, if_false]

namespace Machine

theorem dump_lastError (m : Machine H) (t : ThreadId) (text : String) :
    (m.dump t text).lastError = m.lastError := by
  obtain ⟨journal, dumped⟩ := m.dump_frame t text
  rw [dumped]

theorem enter_lastError (code : Code H) (m : Machine H) (t : ThreadId) (c : Call H) :
    (m.enter code t c).1.lastError = m.lastError := by
  obtain ⟨config, journal, entered⟩ := m.enter_frame code t c
  rw [entered]

theorem notifyFailure_lastError (m : Machine H) (t u : ThreadId) (f : Failure) :
    (m.notifyFailure t f).lastError u = if t = u then some f.text else m.lastError u := by
  by_cases here : t = u
  · subst here
    rw [notifyFailure_self, if_pos rfl]
  · rw [notifyFailure_of_ne _ _ _ (Ne.symm here), if_neg here]

theorem land_lastError (m : Machine H) (t u : ThreadId) (o : Outcome Bytes) :
    (m.land t o).2.lastError u = if t = u then (o.failure?.map some).getD (m.lastError u)
      else m.lastError u := by
  cases o with
  | ok b => exact (ite_self _).symm
  | fail f => exact m.notifyFailure_lastError t u f
  | panic p => cases p <;> exact m.notifyFailure_lastError t u _

theorem apply_lastError (m : Machine H) (t u : ThreadId) (e : Effect H) :
    (m.apply t e).2.lastError u =
      if t = u then (Move.applied t e).verdict.getD (m.lastError u) else m.lastError u := by
  cases e with
  | clearError =>
    by_cases here : t = u
    · subst here
      simp [apply, clearError, Move.verdict]
    · simp [apply, clearError, here, Ne.symm here]
  | lastErrorMessage =>
    have kept : (m.lastErrorMessage t).2.lastError = m.lastError := by
      obtain ⟨journal, reported⟩ := m.lastErrorMessage_frame t
      rw [reported]
    exact (congrFun kept u).trans (ite_self _).symm
  | encode s r => exact (congrFun (dump_lastError ..) u).trans (ite_self _).symm
  | _ => exact (ite_self _).symm

end Machine

theorem Move.lastError_after (code : Code H) (m : Machine H) (move : Move H) (t : ThreadId) :
    (move.after code m).lastError t =
      if move.thread = t then move.verdict.getD (m.lastError t) else m.lastError t := by
  cases move with
  | applied u e => exact m.apply_lastError u t e
  | entered u c => exact (congrFun (m.enter_lastError code u c) t).trans (ite_self _).symm
  | landed u c o => exact m.land_lastError u t o

theorem Machine.lastError_replay (code : Code H) (t : ThreadId) (moves : List (Move H)) :
    (Machine.replay code moves).lastError t = lastFailure t moves := by
  induction moves with
  | nil => rfl
  | cons move moves ih => rw [replay, Move.lastError_after, lastFailure_cons, ih]

theorem Machine.lastErrorMessage_of_some {m : Machine H} {t : ThreadId} {error : String}
    (last : m.lastError t = some error)
    (bound : (Message.encode (errorResponse error)).length < 1 <<< 64) :
    ∃ b, Hex.decode (m.lastErrorMessage t).1 = .ok b ∧
      Message.parse b = .ok ({ isSuccess := false, error } : Response) := by
  have known : Message.schemaOf Response ∈ Catalog.all := by decide +kernel
  refine ⟨Message.encode (errorResponse error), ?_, Message.parse_encode known _ bound⟩
  simp only [lastErrorMessage, last]
  exact Hex.decode_encode _

namespace World

theorem lastError_run (code : Code H) (choices : List (Choice H)) (t : ThreadId) :
    (initial.run code choices).machine.lastError t =
      lastFailure t (initial.run code choices).moves := by
  rw [machine_run, Machine.lastError_replay]

/-- At any point of any run a thread's last error is its latest failure in the order of their ends,
unless that was cleared. A step of another thread leaves it, and so does a call that succeeds; a call
that fails replaces it. What reports it is read as the reply with just this error. No buffer is longer
than a word of 64 bits counts. -/
theorem last_error_of_run (code : Code H) (choices : List (Choice H)) (t : ThreadId) :
    let w : World H := initial.run code choices
    (w.machine.apply t .lastError).1 = lastFailure t w.moves ∧
    (∀ choice move, (w.step code choice).moves = move :: w.moves →
      (move.thread ≠ t → (w.step code choice).machine.lastError t = w.machine.lastError t) ∧
      (∀ c b, move = .landed t c (.ok b) →
        (w.step code choice).machine.lastError t = w.machine.lastError t) ∧
      (∀ c o error, move = .landed t c o → o.failure? = some error →
        (w.step code choice).machine.lastError t = some error) ∧
      (∀ c f error, move = .landed t c (.fail f) → f.Reads error →
        (w.step code choice).machine.lastError t = some error) ∧
      (∀ c error, move = .landed t c (.panic (.text error)) →
        (w.step code choice).machine.lastError t = some error) ∧
      (∀ c, move = .landed t c (.panic .unknown) →
        (w.step code choice).machine.lastError t = some "unknown_panic") ∧
      (move = .applied t .clearError → (w.step code choice).machine.lastError t = none)) ∧
    (∀ error, w.machine.lastError t = some error →
      (Message.encode (Machine.errorResponse error)).length < 1 <<< 64 →
      ∃ b, Hex.decode (w.machine.apply t .lastErrorMessage).1 = .ok b ∧
        Message.parse b = .ok ({ isSuccess := false, error } : Response)) ∧
    (w.machine.lastError t = none → (w.machine.apply t .lastErrorMessage).1 = "") := by
  intro w
  refine ⟨lastError_run code choices t, ?_, ?_, ?_⟩
  · intro choice move stepped
    have replayed : w.machine = .replay code w.moves := machine_run code choices
    have after : (w.step code choice).machine.lastError t =
        if move.thread = t then move.verdict.getD (w.machine.lastError t)
        else w.machine.lastError t := by
      rw [machine_step replayed choice, stepped, Machine.replay, ← replayed, Move.lastError_after]
    have reported {c : Call H} {o : Outcome Bytes} {error : String} (landed : move = .landed t c o)
        (failed : o.failure? = some error) : (w.step code choice).machine.lastError t = some error := by
      subst landed
      rw [after, Move.verdict, failed]
      exact if_pos rfl
    refine ⟨?_, ?_, ?_, ?_, ?_, ?_, ?_⟩
    · intro elsewhere
      rw [after, if_neg elsewhere]
    · intro c b landed
      subst landed
      rw [after]
      exact ite_self _
    · exact fun c o error => reported
    · intro c f error landed reads
      exact reported landed (congrArg some reads.text_eq)
    · exact fun c error landed => reported landed rfl
    · exact fun c landed => reported landed rfl
    · intro cleared
      subst cleared
      rw [after]
      exact if_pos rfl
  · exact fun error last bound => Machine.lastErrorMessage_of_some last bound
  · intro clear
    change (w.machine.lastErrorMessage t).1 = ""
    simp only [Machine.lastErrorMessage, clear]

/-- A handler makes a call that fails, and goes on as if it had not. On two other threads calls are
about to end in a panic. -/
def swallowedFailure : List (Choice Demo.Handler) :=
  [.start 0 (.call none (.guarded (.callThenEcho "zz") []) fun _ => pure []),
    .start 1 (.call none (.guarded (.panic "boom") []) fun _ => pure []),
    .start 2 (.call none (.guarded .panicUnknown []) fun _ => pure []),
    .resume 0, .resume 0, .resume 1, .resume 0, .resume 2, .resume 0]

theorem last_error_of_run_swallowedFailure :
    let w := initial.run Demo.code swallowedFailure
    w.machine.lastError 0 = some "invalid_hex" ∧
    (Message.encode (Machine.errorResponse "invalid_hex")).length < 1 <<< 64 ∧
    (∃ b, Hex.decode (w.machine.apply 0 .lastErrorMessage).1 = .ok b ∧
      Message.parse b = .ok ({ isSuccess := false, error := "invalid_hex" } : Response)) ∧
    (w.step Demo.code (.resume 1)).machine.lastError 1 = some "boom" ∧
    (w.step Demo.code (.resume 1)).machine.lastError 0 = some "invalid_hex" ∧
    (w.step Demo.code (.resume 2)).machine.lastError 2 = some "unknown_panic" := by
  intro w
  have last : w.machine.lastError 0 = some "invalid_hex" := by decide +kernel
  have bound : (Message.encode (Machine.errorResponse "invalid_hex")).length < 1 <<< 64 := by
    decide +kernel
  have text : (w.step Demo.code (.resume 1)).moves =
      .landed 1 (.guarded (.panic "boom") []) (.panic (.text "boom")) :: w.moves := rfl
  have other : (w.step Demo.code (.resume 2)).moves =
      .landed 2 (.guarded .panicUnknown []) (.panic .unknown) :: w.moves := rfl
  obtain ⟨_, steps, reported, _⟩ := last_error_of_run Demo.code swallowedFailure 0
  obtain ⟨_, texts, _⟩ := last_error_of_run Demo.code swallowedFailure 1
  obtain ⟨_, others, _⟩ := last_error_of_run Demo.code swallowedFailure 2
  obtain ⟨elsewhere, _⟩ := steps (.resume 1) _ text
  obtain ⟨_, _, _, _, boom, _⟩ := texts (.resume 1) _ text
  obtain ⟨_, _, _, _, _, unknown, _⟩ := others (.resume 2) _ other
  exact ⟨last, bound, reported _ last bound, boom _ _ rfl, (elsewhere (by decide)).trans last,
    unknown _ rfl⟩

end World

end WalletBridge.Api
