import WalletBridge.Proofs.Api.LastError

namespace WalletBridge

theorem append_ne_empty {s t : String} (nonempty : s ≠ "") : s ++ t ≠ "" :=
  fun empty => nonempty (String.append_eq_empty_iff.mp empty).1

theorem MessageError.message_ne_empty (e : MessageError) : e.message ≠ "" := by
  cases e with
  | decode e => exact append_ne_empty (by decide)
  | lengthOutOfRange requested available =>
    exact append_ne_empty (append_ne_empty (append_ne_empty (by decide)))
  | typeUrlMismatch expected actual =>
    exact append_ne_empty (append_ne_empty (append_ne_empty (by decide)))
  | object e => exact append_ne_empty (by decide)

theorem ApiError.message_ne_empty (e : ApiError) : e.message ≠ "" := by
  cases e with
  | unsupportedMethod | paramMissing => decide
  | handlerNotRegistered method => exact append_ne_empty (by decide)

theorem Hex.Error.message_ne_empty (e : Hex.Error) : e.message ≠ "" := by
  cases e <;> decide

theorem Wire.DecodeError.message_ne_empty (e : Wire.DecodeError) : e.message ≠ "" :=
  append_ne_empty (append_ne_empty (by decide))

/-- All failures but those of a handler's own say something. -/
theorem Failure.other_of_text_eq_empty {f : Failure} (silent : f.text = "") :
    ∃ causes, f = .other "" causes := by
  cases f with
  | message e => exact absurd silent e.message_ne_empty
  | api e => exact absurd silent e.message_ne_empty
  | hex e => exact absurd silent e.message_ne_empty
  | decode e => exact absurd silent e.message_ne_empty
  | other text causes =>
    have empty : text = "" := silent
    exact ⟨causes, by rw [empty]⟩

namespace Api

variable {H : Type}

def FailedSinceCleared (t : ThreadId) (moves : List (Move H)) : Prop :=
  ∃ later earlier c o, moves = later ++ .landed t c o :: earlier ∧ o.failure?.isSome ∧
    .applied t .clearError ∉ later

theorem failedSinceCleared_cons_iff {t : ThreadId} {move : Move H} {moves : List (Move H)} :
    FailedSinceCleared t (move :: moves) ↔
      (∃ c o, move = .landed t c o ∧ o.failure?.isSome) ∨
        move ≠ .applied t .clearError ∧ FailedSinceCleared t moves := by
  constructor
  · rintro ⟨later, earlier, c, o, split, failed, uncleared⟩
    cases later with
    | nil =>
      cases split
      exact .inl ⟨c, o, rfl, failed⟩
    | cons first later =>
      cases split
      rw [List.mem_cons, not_or] at uncleared
      exact .inr ⟨Ne.symm uncleared.1, later, earlier, c, o, rfl, failed, uncleared.2⟩
  · rintro (⟨c, o, rfl, failed⟩ | ⟨kept, later, earlier, c, o, rfl, failed, uncleared⟩)
    · exact ⟨[], moves, c, o, rfl, failed, List.not_mem_nil⟩
    · refine ⟨move :: later, earlier, c, o, rfl, failed, ?_⟩
      rw [List.mem_cons, not_or]
      exact ⟨Ne.symm kept, uncleared⟩

theorem lastFailure_isSome_iff (t : ThreadId) (moves : List (Move H)) :
    (lastFailure t moves).isSome ↔ FailedSinceCleared t moves := by
  induction moves with
  | nil =>
    constructor
    · intro failed
      cases failed
    · rintro ⟨later, earlier, c, o, split, _⟩
      cases later <;> cases split
  | cons move moves ih =>
    rw [lastFailure_cons, failedSinceCleared_cons_iff, ← ih]
    cases move with
    | applied u e =>
      by_cases here : u = t
      · subst here
        cases e <;> simp [Move.thread, Move.verdict]
      · simp [Move.thread, here]
    | entered u c => simp [Move.verdict]
    | landed u c o =>
      by_cases here : u = t
      · subst here
        cases failed : o.failure? with
        | none => simp [Move.thread, Move.verdict, failed]
        | some error =>
          refine iff_of_true ?_ (.inl ⟨c, o, rfl, Option.isSome_iff_exists.mpr ⟨error, failed⟩⟩)
          simp [Move.thread, Move.verdict, failed]
      · simp [Move.thread, here]

namespace Machine

theorem encode_errorResponse_eq_nil_iff {error : String} :
    Message.encode (errorResponse error) = [] ↔ error = "" := by
  refine Schema.encode_eq_nil_iff.trans ?_
  constructor
  · intro zero
    exact congrArg (fun r : Response.fields.Record => r.2.1) zero
  · intro empty
    rw [empty]
    rfl

theorem lastErrorMessage_eq_empty_iff (m : Machine H) (t : ThreadId) :
    (m.lastErrorMessage t).1 = "" ↔ m.lastError t = none ∨ m.lastError t = some "" := by
  unfold lastErrorMessage
  cases m.lastError t with
  | none => simp
  | some error =>
    have written : Hex.encode (Message.encode (errorResponse error)) = "" ↔ error = "" :=
      Hex.encode_eq_empty_iff.trans encode_errorResponse_eq_nil_iff
    simp [written]

end Machine

theorem Outcome.failure?_eq_some_empty_iff {α : Type} {o : Outcome α} :
    o.failure? = some "" ↔ (∃ causes, o = .fail (.other "" causes)) ∨ o = .panic (.text "") := by
  cases o with
  | ok a => simp [failure?]
  | fail f =>
    simp only [failure?, Option.some.injEq, Outcome.fail.injEq, reduceCtorEq, or_false]
    constructor
    · exact Failure.other_of_text_eq_empty
    · rintro ⟨causes, rfl⟩
      rfl
  | panic p => cases p <;> simp [failure?]

namespace World

/-- The report is empty when no call on the thread failed since its last clearing, and otherwise only
when the call that failed last has no text to report. A call of the app that fails gives it an empty
reply and is reported, unless a handler failed or panicked without a text. -/
theorem failure_report_of_run (code : Code H) (choices : List (Choice H)) (t : ThreadId) :
    let w : World H := initial.run code choices
    ((w.machine.apply t .lastErrorMessage).1 = "" ↔
      ¬ FailedSinceCleared t w.moves ∨ lastFailure t w.moves = some "") ∧
    ∀ choice c o, (w.step code choice).moves = .landed t c o :: w.moves → o.failure?.isSome →
      (∀ text, c = .api text → ((Call.api text : Call H).reply (w.machine.land t o).1 : String) = "") ∧
      (((w.step code choice).machine.apply t .lastErrorMessage).1 = "" ↔
        (∃ causes, o = .fail (.other "" causes)) ∨ o = .panic (.text "")) := by
  intro w
  have report (choices : List (Choice H)) :
      ((initial.run code choices).machine.apply t .lastErrorMessage).1 = "" ↔
        lastFailure t (initial.run code choices).moves = none ∨
          lastFailure t (initial.run code choices).moves = some "" := by
    rw [← lastError_run code choices t]
    exact Machine.lastErrorMessage_eq_empty_iff _ t
  refine ⟨?_, ?_⟩
  · rw [← lastFailure_isSome_iff, Option.not_isSome_iff_eq_none]
    exact report choices
  · intro choice c o landed failed
    have after : w.step code choice = initial.run code (choices ++ [choice]) := by
      rw [run, List.foldl_append]
      rfl
    obtain ⟨error, failed⟩ := Option.isSome_iff_exists.mp failed
    have last : lastFailure t (w.step code choice).moves = some error := by
      rw [landed, lastFailure_cons]
      simp [Move.thread, Move.verdict, failed]
    refine ⟨?_, ?_⟩
    · intro text _
      cases o with
      | ok b => cases failed
      | fail f => rfl
      | panic p => rfl
    · rw [← Outcome.failure?_eq_some_empty_iff, failed, after, report, ← after, last]
      simp

def silentFailure : List (Choice Demo.Handler) :=
  [.start 0 (.effect none (.register .shared .signTx (.fail "")) fun _ =>
    .call none (.api "0a077369676e5f74781200") fun _ => pure []), .resume 0, .resume 0, .resume 0]

theorem failure_report_silentFailure :
    let w := initial.run Demo.code silentFailure
    FailedSinceCleared 0 w.moves ∧ (w.machine.apply 0 .lastErrorMessage).1 = "" := by
  intro w
  have failed : (lastFailure 0 w.moves).isSome := by decide +kernel
  have silent : (w.machine.lastErrorMessage 0).1 = "" := by decide +kernel
  exact ⟨(lastFailure_isSome_iff 0 w.moves).mp failed, silent⟩

end World

end Api

end WalletBridge
