import Mathlib.Data.Nat.Find
import WalletBridge.Proofs.Api.TypedCall

namespace WalletBridge.Api

variable {H : Type}

inductive Stage
  | text
  | envelope
  | method
  | param
  | handler
  | message
  deriving DecidableEq

def Stage.position : Stage → Nat
  | .text => 0
  | .envelope => 1
  | .method => 2
  | .param => 3
  | .handler => 4
  | .message => 5

theorem Stage.eq_of_position {s s' : Stage} (same : s.position = s'.position) : s = s' := by
  cases s <;> cases s' <;> first | rfl | cases same

/-- Something that is wrong with a call, wherever else it may fail, and the failure that tells it. A
parameter is held against the message that the typed handler reads, or the initialisation. -/
inductive Call.Obstacle (code : Code H) (m : Machine H) : Call H → Stage → Failure → Prop
  | text {d : Target} {text : String} {e : Hex.Error} (failed : Hex.decodeAuto text = .error e) :
      Obstacle code m (.hex d text) .text (.hex e)
  | bytes {d : Target} {b : Bytes} {e : Wire.DecodeError}
      (failed : (Message.parse b : Except _ Action) = .error e) :
      Obstacle code m (.bytes d b) .envelope (.decode e)
  | hex {d : Target} {text : String} {b : Bytes} {e : Wire.DecodeError}
      (decoded : Hex.decodeAuto text = .ok b)
      (failed : (Message.parse b : Except _ Action) = .error e) :
      Obstacle code m (.hex d text) .envelope (.decode e)
  | method {c : Call H} {d : Target} {a : Action} (brings : c.Brings d a)
      (unknown : Method.parse? a.method = none) : Obstacle code m c .method (.api .unsupportedMethod)
  | param {c : Call H} {d : Target} {a : Action} (brings : c.Brings d a) (missing : a.param = none) :
      Obstacle code m c .param (.api .paramMissing)
  | handler {c : Call H} {d : Target} {a : Action} {method : Method} (brings : c.Brings d a)
      (spelled : Method.parse? a.method = some method) (served : method ≠ .init)
      (unregistered : m.tables d method = none) :
      Obstacle code m c .handler (.api (.handlerNotRegistered method))
  | initialisation {c : Call H} {d : Target} {a : Action} {param : Any} {e : Wire.DecodeError}
      (brings : c.Brings d a) (spelled : Method.parse? a.method = some .init)
      (given : a.param = some param)
      (failed : (Message.parse param.value : Except _ InitParam) = .error e) :
      Obstacle code m c .message (.decode e)
  | typed {c : Call H} {d : Target} {a : Action} {method : Method} {param : Any} {h : H}
      {P R : Schema} {run : P.Record → Act H R.Record} {e : Wire.DecodeError}
      (brings : c.Brings d a) (spelled : Method.parse? a.method = some method)
      (served : method ≠ .init) (registered : m.tables d method = some h)
      (typed : code h = typedHandler P R run) (given : a.param = some param)
      (failed : P.parse param.value = .error e) : Obstacle code m c .message (.decode e)

def Call.ClearBefore (code : Code H) (m : Machine H) (c : Call H) (stage : Stage) : Prop :=
  ∀ {earlier f}, c.Obstacle code m earlier f → stage.position ≤ earlier.position

/-- The call enters no program but its own failure. Nothing changes as it does, and the journal gets
no more than an entry for the request. -/
structure Call.FailsAtOnce (code : Code H) (m : Machine H) (t : ThreadId) (c : Call H) (f : Failure)
    (noted : List (Event H)) : Prop where
  enters : m.enter code t c = ({ m with journal := noted ++ m.journal }, .fail f)
  at_most_dispatched : noted = [] ∨ ∃ method typeUrl, noted = [⟨t, .dispatched method typeUrl⟩]

namespace Call

variable {code : Code H} {m : Machine H} {t : ThreadId} {c : Call H} {d : Target} {stage : Stage}
  {f : Failure}

theorem FailsAtOnce.unnoted (enters : m.enter code t c = (m, .fail f)) :
    c.FailsAtOnce code m t f [] :=
  ⟨enters, .inl rfl⟩

theorem FailsAtOnce.noted {method : Method} {typeUrl : String}
    (enters : m.enter code t c = (m.record t (.dispatched method typeUrl), .fail f)) :
    c.FailsAtOnce code m t f [⟨t, .dispatched method typeUrl⟩] :=
  ⟨enters, .inr ⟨method, typeUrl, rfl⟩⟩

/-- With nothing wrong before it the call gets to the stage, and fails there. -/
theorem Obstacle.failsAtOnce (t : ThreadId) (obstacle : c.Obstacle code m stage f)
    (clear : c.ClearBefore code m stage) : ∃ noted, c.FailsAtOnce code m t f noted := by
  cases obstacle with
  | text failed => exact ⟨[], .unnoted (by simp only [Machine.enter, failed])⟩
  | bytes failed => exact ⟨[], .unnoted (by simp only [Machine.enter, Machine.dispatchBytes, failed])⟩
  | hex decoded failed =>
    refine ⟨[], .unnoted ?_⟩
    rw [Machine.enter_hex decoded]
    simp only [Machine.enter, Machine.dispatchBytes, failed]
  | method brings unknown =>
    refine ⟨[], .unnoted ?_⟩
    simp only [Machine.enter_of_brings brings, Machine.dispatch, Action.route, unknown]
  | @param _ d a brings missing =>
    cases spelled : Method.parse? a.method with
    | none => exact absurd (clear (.method brings spelled)) (by decide)
    | some method =>
      refine ⟨[], .unnoted ?_⟩
      simp only [Machine.enter_of_brings brings, Machine.dispatch, Action.route, spelled, missing]
  | @handler _ d a method brings spelled served unregistered =>
    cases given : a.param with
    | none => exact absurd (clear (.param brings given)) (by decide)
    | some param =>
      have routed := Action.route_eq_ok_iff.mpr ⟨spelled, given⟩
      have enters : m.enter code t c = (m.record t (.dispatched method param.typeUrl),
          Machine.handling code method param (m.tables d method)) :=
        Machine.enter_of_asks (brings.asks routed) served
      rw [unregistered] at enters
      exact ⟨_, .noted enters⟩
  | @initialisation _ d a param e brings spelled given failed =>
    have routed := Action.route_eq_ok_iff.mpr ⟨spelled, given⟩
    have enters : m.enter code t c =
        (m.record t (.dispatched .init param.typeUrl), .fail (.decode e)) := by
      simp only [Machine.enter_of_brings brings, Machine.dispatch, routed, if_true, failed]
    exact ⟨_, .noted enters⟩
  | @typed _ d a method param h P R run e brings spelled served registered typed given failed =>
    have routed := Action.route_eq_ok_iff.mpr ⟨spelled, given⟩
    have enters : m.enter code t c = (m.record t (.dispatched method param.typeUrl),
        Machine.handling code method param (m.tables d method)) :=
      Machine.enter_of_asks (brings.asks routed) served
    rw [registered, Machine.handling, typed, typedHandler, failed] at enters
    exact ⟨_, .noted enters⟩

theorem Obstacle.unique {f' : Failure} (obstacle : c.Obstacle code m stage f)
    (other : c.Obstacle code m stage f') (clear : c.ClearBefore code m stage) : f' = f := by
  obtain ⟨noted, fails⟩ := obstacle.failsAtOnce 0 clear
  obtain ⟨noted', fails'⟩ := other.failsAtOnce 0 clear
  have same := congrArg Prod.snd (fails'.enters.symm.trans fails.enters)
  injection same with same
  injection same

theorem exists_first (blocked : ∃ stage f, c.Obstacle code m stage f) :
    ∃ stage f, c.Obstacle code m stage f ∧ c.ClearBefore code m stage := by
  classical
  have somewhere : ∃ n stage f, c.Obstacle code m stage f ∧ stage.position = n := by
    obtain ⟨stage, f, obstacle⟩ := blocked
    exact ⟨_, stage, f, obstacle, rfl⟩
  obtain ⟨stage, f, obstacle, position⟩ := Nat.find_spec somewhere
  refine ⟨stage, f, obstacle, fun other => ?_⟩
  rw [position]
  exact Nat.find_min' somewhere ⟨_, _, other, rfl⟩

/-- The state after the call is the one before, but for the thread's last error. -/
theorem FailsAtOnce.call {noted : List (Event H)} (fails : c.FailsAtOnce code m t f noted)
    (depth : Nat) :
    Machine.call code (depth + 1) t c m = some (c.reply (.error f),
      { m.setLastError t (some f.text) with
        journal := ⟨t, .failed f⟩ :: (noted ++ m.journal) }) := by
  rw [Machine.call_succ_eq, fails.enters]
  rfl

theorem FailsAtOnce.call_reports {noted : List (Event H)} {text : String}
    (fails : c.FailsAtOnce code m t f noted) (reads : f.Reads text) (depth : Nat) :
    ∃ after, Machine.call code (depth + 1) t c m = some (c.reply (.error f), after) ∧
      m.Reports after t text ∧ after.journal = ⟨t, .failed f⟩ :: (noted ++ m.journal) := by
  have reports : { m with journal := noted ++ m.journal }.Reports _ t text :=
    Machine.reports_notifyFailure reads
  exact ⟨_, fails.call depth, reports.of_journal, rfl⟩

theorem FailsAtOnce.step {noted : List (Event H)} (fails : c.FailsAtOnce code m t f noted)
    {on : Option ThreadId} {k : Task H} {next : c.Reply → Act H Bytes}
    (calls : k.program = .call on c next) (thread : on.getD k.thread = t) :
    ∃ failing, k.step code m = some (.entered t c, failing, { m with journal := noted ++ m.journal }) ∧
      ∀ m', failing.step code m' = some (.landed t c (.fail f),
        { k with program := next (c.reply (.error f)) }, m'.notifyFailure t f) := by
  subst thread
  refine ⟨⟨on.getD k.thread, .fail f, ⟨k.thread, c, next⟩ :: k.frames⟩, ?_, fun m' => rfl⟩
  simp only [Task.step, calls, fails.enters]

/-- Of all that is wrong with a call before its handler, it reports what comes first. No handler runs,
and all is as it was before, but for the last error of the calling thread: the text of what is
reported. Among other programs the call takes two steps, and what these do in between stays. -/
theorem refused_at_first (code : Code H) (m : Machine H) (t : ThreadId) (c : Call H)
    (blocked : ∃ stage f, c.Obstacle code m stage f) :
    ∃ stage f text noted, c.Obstacle code m stage f ∧ f.Reads text ∧
      (∀ other g, c.Obstacle code m other g →
        other = stage ∧ g = f ∨ stage.position < other.position) ∧
      (stage = .handler → ∃ d a method, c.Brings d a ∧ Method.parse? a.method = some method ∧
        text = "handler_not_registered# method: " ++ method.name) ∧
      c.FailsAtOnce code m t f noted ∧
      (∀ depth, ∃ after, Machine.call code (depth + 1) t c m = some (c.reply (.error f), after) ∧
        m.Reports after t text ∧ after.journal = ⟨t, .failed f⟩ :: (noted ++ m.journal)) ∧
      ∀ (k : Task H) on next, k.program = .call on c next → on.getD k.thread = t →
        ∃ failing,
          k.step code m = some (.entered t c, failing, { m with journal := noted ++ m.journal }) ∧
          ∀ m', ∃ after, failing.step code m' = some (.landed t c (.fail f),
              { k with program := next (c.reply (.error f)) }, after) ∧
            m'.Reports after t text ∧ after.journal = ⟨t, .failed f⟩ :: m'.journal := by
  obtain ⟨stage, f, obstacle, clear⟩ := exists_first blocked
  obtain ⟨noted, fails⟩ := obstacle.failsAtOnce t clear
  refine ⟨stage, f, f.text, noted, obstacle, f.reads_text, ?_, ?_, fails,
    fails.call_reports f.reads_text, ?_⟩
  · intro other g present
    rcases Nat.eq_or_lt_of_le (clear present) with same | later
    · have same := Stage.eq_of_position same
      subst same
      exact .inl ⟨rfl, obstacle.unique present clear⟩
    · exact .inr later
  · intro unserved
    subst unserved
    cases obstacle with
    | handler brings spelled served unregistered => exact ⟨_, _, _, brings, spelled, rfl⟩
  · intro k on next calls thread
    obtain ⟨failing, enters, lands⟩ := fails.step calls thread
    exact ⟨failing, enters, fun m' =>
      ⟨_, lands m', Machine.reports_notifyFailure f.reads_text, m'.notifyFailure_journal t f⟩⟩

/-- A request for a method that has no handler, and without the parameter too. -/
def bareRequest : Call Demo.Handler := .api "0x0a0f48445f53544f52455f435245415445"

def tornRequest : Call Demo.Handler :=
  .action .shared
    { method := "keystore_common_verify", param := some { value := [0x0a, 0x09, 0x77] } }

theorem refused_at_first_bareRequest :
    bareRequest.Obstacle Demo.code Demo.start .handler (.api (.handlerNotRegistered .hdStoreCreate)) ∧
    (∃ after, Machine.call Demo.code 1 5 bareRequest Demo.start = some ("", after) ∧
      after.lastError 5 = some "param_missing" ∧
      (∀ u, u ≠ 5 → after.lastError u = Demo.start.lastError u) ∧
      after.tables = Demo.start.tables ∧ after.config = Demo.start.config ∧
      after.debug = Demo.start.debug) ∧
    ∃ stage f noted, tornRequest.Obstacle Demo.code Demo.start stage f ∧
      tornRequest.FailsAtOnce Demo.code Demo.start 5 f noted := by
  have decoded : Hex.decodeAuto "0x0a0f48445f53544f52455f435245415445" =
      .ok (0x0a :: 0x0f :: Utf8.encode "HD_STORE_CREATE") := by decide +kernel
  have parsed : (Message.parse (0x0a :: 0x0f :: Utf8.encode "HD_STORE_CREATE") : Except _ Action) =
      .ok { method := "HD_STORE_CREATE" } := by decide +kernel
  have brings : bareRequest.Brings .shared { method := "HD_STORE_CREATE" } := .hex decoded parsed
  have missing : bareRequest.Obstacle Demo.code Demo.start .param (.api .paramMissing) :=
    .param brings rfl
  have spelled : Method.parse? "HD_STORE_CREATE" = some .hdStoreCreate := by decide +kernel
  have unserved : bareRequest.Obstacle Demo.code Demo.start .handler
      (.api (.handlerNotRegistered .hdStoreCreate)) := .handler brings spelled nofun (by decide +kernel)
  have reported : ((Machine.call Demo.code 1 5 bareRequest Demo.start).map
      fun (_, after) => after.lastError 5) = some (some "param_missing") := by decide +kernel
  have torn : (Message.schemaOf WalletKeyParam).parse [0x0a, 0x09, 0x77] =
      .error ⟨.bufferUnderflow, [⟨"WalletKeyParam", "id"⟩]⟩ := by decide +kernel
  have verifies : Method.parse? "keystore_common_verify" = some .keystoreCommonVerify := by
    decide +kernel
  have table : Demo.start.tables .shared .keystoreCommonVerify = some .verifyPassword := by
    decide +kernel
  have typed := messageHandler_eq_typedHandler Demo.verifyPassword
  have unread : ∃ f, tornRequest.Obstacle Demo.code Demo.start .message f :=
    ⟨_, .typed (.action _ _) verifies nofun table typed rfl torn⟩
  refine ⟨unserved, ?_, ?_⟩
  · obtain ⟨_, f, text, _, _, _, _, _, _, answered, _⟩ :=
      refused_at_first Demo.code Demo.start 5 bareRequest ⟨_, _, missing⟩
    obtain ⟨after, called, reports, _⟩ := answered 0
    rw [called, Option.map_some, Option.some.injEq] at reported
    exact ⟨after, called, reported, reports.others, reports.tables, reports.config, reports.debug⟩
  · obtain ⟨stage, f, _, noted, first, _, _, _, fails, _⟩ :=
      refused_at_first Demo.code Demo.start 5 tornRequest ⟨_, unread⟩
    exact ⟨stage, f, noted, first, fails⟩

end Call

end WalletBridge.Api
