import WalletBridge.Demo.Handler
import WalletBridge.Proofs.Api.Reporting
import WalletBridge.Proofs.Api.Request
import WalletBridge.Proofs.Api.Schedule
import WalletBridge.Proofs.Schema.Absent
import WalletBridge.Proofs.Schema.WireRoundTrip

namespace WalletBridge

/-- What the bytes do not mention is empty. -/
theorem InitParam.empty_of_parse {b : Bytes} {p : InitParam} (parsed : Message.parse b = .ok p) :
    ∃ tags, Wire.Tagged b tags ∧ (1 ∉ tags → p.fileDir = "") ∧ (2 ∉ tags → p.xpubCommonKey = "") ∧
      (3 ∉ tags → p.xpubCommonIv = "") := by
  cases read : (Message.schemaOf InitParam).parse b with
  | error e =>
    rw [Message.parse, read] at parsed
    cases parsed
  | ok r =>
    rw [Message.parse, read] at parsed
    cases parsed
    obtain ⟨tags, tagged, fileDir, key, iv, _⟩ := Schema.zeroOutside_of_parse read
    exact ⟨tags, tagged, fileDir, key, iv⟩

namespace Api

variable {H : Type} {code : Code H} {m : Machine H} {t : ThreadId} {d : Target}

structure Config.Holds (c : Config) (p : InitParam) : Prop where
  fileDir : c.fileDir = p.fileDir
  xpubCommonKey : c.xpubCommonKey = p.xpubCommonKey
  xpubCommonIv : c.xpubCommonIv = p.xpubCommonIv

theorem Config.holds_ofParam (p : InitParam) : (ofParam p).Holds p :=
  ⟨ofParam_fileDir p, ofParam_xpubCommonKey p, ofParam_xpubCommonIv p⟩

def Call.Initialises (c : Call H) (p : InitParam) : Prop :=
  ∃ d a param, c.Brings d a ∧ Method.parse? a.method = some .init ∧ a.param = some param ∧
    Message.parse param.value = .ok p

def Move.Initialises (p : InitParam) : Move H → Prop
  | .entered _ c => c.Initialises p
  | _ => False

/-- Of the steps, with the latest first, the last that initialises does so with `p`. -/
def LastInitialised (p : InitParam) (moves : List (Move H)) : Prop :=
  ∃ move later earlier, moves = later ++ move :: earlier ∧ move.Initialises p ∧
    ∀ other ∈ later, ∀ q, ¬ other.Initialises q

namespace Machine

theorem enter_of_missing {c : Call H} {a : Action} (brings : c.Brings d a)
    (spelled : Method.parse? a.method = some .init) (missing : a.param = none) :
    m.enter code t c = (m, .fail (.api .paramMissing)) := by
  have routed : a.route = .error (.api .paramMissing) := by
    simp only [Action.route, spelled, missing]
  simp only [enter_of_brings brings, dispatch, routed]

theorem enter_of_undecodable {c : Call H} {a : Action} {param : Any} {e : Wire.DecodeError}
    (brings : c.Brings d a) (spelled : Method.parse? a.method = some .init)
    (given : a.param = some param) (failed : (Message.parse param.value : Except _ InitParam) = .error e) :
    m.enter code t c = (m.record t (.dispatched .init param.typeUrl), .fail (.decode e)) := by
  have routed := Action.route_eq_ok_iff.mpr ⟨spelled, given⟩
  simp only [enter_of_brings brings, dispatch, routed, if_true, failed]

theorem enter_of_initialises {c : Call H} {a : Action} {param : Any} {p : InitParam}
    (brings : c.Brings d a) (spelled : Method.parse? a.method = some .init)
    (given : a.param = some param) (parsed : Message.parse param.value = .ok p) :
    m.enter code t c =
      ((m.record t (.dispatched .init param.typeUrl)).configure t p, pure []) := by
  have routed := Action.route_eq_ok_iff.mpr ⟨spelled, given⟩
  simp only [enter_of_brings brings, dispatch, routed, if_true, parsed]

theorem apply_config (m : Machine H) (t : ThreadId) (e : Effect H) :
    (m.apply t e).2.config = m.config := by
  cases e with
  | lastErrorMessage =>
    obtain ⟨journal, reported⟩ := m.lastErrorMessage_frame t
    change (m.lastErrorMessage t).2.config = m.config
    rw [reported]
  | encode s r =>
    obtain ⟨journal, dumped⟩ := m.dump_frame t (s.dump r)
    change (m.dump t (s.dump r)).config = m.config
    rw [dumped]
  | _ => rfl

theorem land_config (m : Machine H) (t : ThreadId) (o : Outcome Bytes) :
    (m.land t o).2.config = m.config := by
  cases o with
  | ok b => rfl
  | fail f => exact m.notifyFailure_config t f
  | panic p => exact m.notifyFailure_config t _

theorem enter_config_of_idle {c : Call H} (idle : ∀ p, ¬ c.Initialises p) :
    (m.enter code t c).1.config = m.config := by
  cases c.entry with
  | initialising p asks parsed enters =>
    obtain ⟨a, brings, routed⟩ := asks.brings
    obtain ⟨spelled, given⟩ := Action.route_eq_ok_iff.mp routed
    exact absurd ⟨_, a, _, brings, spelled, given, parsed⟩ (idle p)
  | rejected f enters | direct h input enters => rw [enters]
  | unreadable e asks failed enters | served asks other enters => rw [enters, record_config]

theorem enter_config_of_initialises {c : Call H} {p : InitParam} (initialises : c.Initialises p) :
    (m.enter code t c).1.config.Holds p := by
  obtain ⟨d, a, param, brings, spelled, given, parsed⟩ := initialises
  rw [enter_of_initialises brings spelled given parsed, configure_config]
  exact Config.holds_ofParam p

end Machine

theorem Move.config_of_idle (code : Code H) {move : Move H} (idle : ∀ p, ¬ move.Initialises p)
    (m : Machine H) : (move.after code m).config = m.config := by
  cases move with
  | applied t e => exact m.apply_config t e
  | entered t c => exact Machine.enter_config_of_idle idle
  | landed t c o => exact m.land_config t o

theorem Move.config_of_initialises (code : Code H) {move : Move H} {p : InitParam}
    (initialises : move.Initialises p) (m : Machine H) :
    (move.after code m).config.Holds p := by
  cases move with
  | applied t e => exact initialises.elim
  | entered t c => exact Machine.enter_config_of_initialises initialises
  | landed t c o => exact initialises.elim

theorem lastInitialised_cons {move : Move H} {moves : List (Move H)} {p : InitParam}
    (idle : ∀ q, ¬ move.Initialises q) (last : LastInitialised p moves) :
    LastInitialised p (move :: moves) := by
  obtain ⟨first, later, earlier, rfl, initialises, latest⟩ := last
  refine ⟨first, move :: later, earlier, rfl, initialises, ?_⟩
  intro other member
  rcases List.mem_cons.mp member with rfl | member
  · exact idle
  · exact latest other member

theorem Machine.config_replay (code : Code H) (moves : List (Move H)) :
    (∃ p, LastInitialised p moves ∧ (Machine.replay code moves).config.Holds p) ∨
      (∀ move ∈ moves, ∀ p, ¬ move.Initialises p) ∧
        (Machine.replay code moves).config = ⟨"", "", ""⟩ := by
  induction moves with
  | nil => exact .inr ⟨fun _ member => absurd member List.not_mem_nil, rfl⟩
  | cons move moves ih =>
    rw [replay]
    by_cases initialising : ∃ p, move.Initialises p
    · obtain ⟨p, initialises⟩ := initialising
      have last : LastInitialised p (move :: moves) :=
        ⟨move, [], moves, rfl, initialises, fun _ member => absurd member List.not_mem_nil⟩
      exact .inl ⟨p, last, Move.config_of_initialises code initialises _⟩
    · have idle (p : InitParam) : ¬ move.Initialises p := fun initialises =>
        initialising ⟨p, initialises⟩
      rw [Move.config_of_idle code idle]
      rcases ih with ⟨p, last, config⟩ | ⟨none, config⟩
      · exact .inl ⟨p, lastInitialised_cons idle last, config⟩
      · refine .inr ⟨?_, config⟩
        intro other member
        rcases List.mem_cons.mp member with rfl | member
        · exact idle
        · exact none other member

/-- The entries for initialisation that dispatchers may have make no difference to any call. -/
theorem Machine.enter_of_tables {tables : Target → Table H}
    (same : ∀ d method, method ≠ .init → tables d method = m.tables d method) (c : Call H) :
    { m with tables }.enter code t c =
      ({ (m.enter code t c).1 with tables }, (m.enter code t c).2) := by
  cases c.entry with
  | @served d method param asks other enters =>
    rw [enters, enters]
    simp only [same d method other]
    rfl
  | rejected f enters | direct h input enters => rw [enters, enters]
  | unreadable e asks failed enters | initialising p asks parsed enters =>
    rw [enters, enters]
    rfl

namespace World

/-- At any point of any run the settings are those of the latest request for initialisation, on whatever
dispatcher and in whatever spelling, whose parameter could be read, and empty if there was none. No step
changes them but the beginning of such a request. A request without a parameter, or with one that cannot
be read, fails and leaves them. One whose parameter can be read succeeds at once and replaces them as a
whole, with the fields that the parameter does not mention empty. No handler is run for any of these:
what dispatchers have for initialisation makes no difference to any call. -/
theorem config_of_run (code : Code H) (choices : List (Choice H)) :
    let w : World H := initial.run code choices
    (∀ t, (∃ p, LastInitialised p w.moves ∧ Config.Holds (w.machine.apply t .config).1 p) ∨
      (∀ move ∈ w.moves, ∀ p, ¬ move.Initialises p) ∧
        (w.machine.apply t .config).1 = (⟨"", "", ""⟩ : Config)) ∧
    (∀ choice, (w.step code choice).machine.config = w.machine.config ∨
      ∃ t c p, (w.step code choice).moves = .entered t c :: w.moves ∧ c.Initialises p ∧
        (w.step code choice).machine.config.Holds p) ∧
    (∀ t c d a, c.Brings d a → Method.parse? a.method = some .init → ∀ depth,
      (a.param = none → ∃ after, Machine.call code (depth + 1) t c w.machine =
          some (c.reply (.error (.api .paramMissing)), after) ∧
        w.machine.Reports after t "param_missing") ∧
      (∀ param e text, a.param = some param →
        (Message.parse param.value : Except _ InitParam) = .error e → Failure.Reads (.decode e) text →
        ∃ after, Machine.call code (depth + 1) t c w.machine =
            some (c.reply (.error (.decode e)), after) ∧ w.machine.Reports after t text) ∧
      (∀ param p, a.param = some param → Message.parse param.value = .ok p →
        ∃ config journal, Machine.call code (depth + 1) t c w.machine =
            some (c.reply (.ok []), { w.machine with config, journal }) ∧ config.Holds p)) ∧
    (∀ b p, Message.parse b = .ok (p : InitParam) → ∃ tags, Wire.Tagged b tags ∧
      (1 ∉ tags → p.fileDir = "") ∧ (2 ∉ tags → p.xpubCommonKey = "") ∧
      (3 ∉ tags → p.xpubCommonIv = "")) ∧
    ∀ tables, (∀ d method, method ≠ .init → tables d method = w.machine.tables d method) →
      ∀ t c, { w.machine with tables }.enter code t c =
        ({ (w.machine.enter code t c).1 with tables }, (w.machine.enter code t c).2) := by
  intro w
  have replayed : w.machine = .replay code w.moves := machine_run code choices
  refine ⟨?_, ?_, ?_, fun b p => InitParam.empty_of_parse, fun tables same t =>
    Machine.enter_of_tables same⟩
  · intro t
    have config := Machine.config_replay code w.moves
    rw [← replayed] at config
    exact config
  · intro choice
    rcases step_moves code w choice with ⟨machine, _⟩ | ⟨move, machine, moves⟩
    · exact .inl (congrArg Machine.config machine)
    · rw [machine, moves]
      by_cases initialising : ∃ p, move.Initialises p
      · obtain ⟨p, initialises⟩ := initialising
        have config := Move.config_of_initialises code initialises w.machine
        cases move with
        | entered t c => exact .inr ⟨t, c, p, rfl, initialises, config⟩
        | applied t e => exact initialises.elim
        | landed t c o => exact initialises.elim
      · exact .inl (Move.config_of_idle code (fun p initialises => initialising ⟨p, initialises⟩) _)
  · intro t c d a brings spelled depth
    refine ⟨?_, ?_, ?_⟩
    · intro missing
      rw [Machine.call_succ_eq, Machine.enter_of_missing brings spelled missing]
      exact ⟨_, rfl, Machine.reports_notifyFailure .paramMissing⟩
    · intro param e text given failed reads
      rw [Machine.call_succ_eq, Machine.enter_of_undecodable brings spelled given failed]
      have reports : (w.machine.record t (.dispatched .init param.typeUrl)).Reports _ t text :=
        Machine.reports_notifyFailure reads
      exact ⟨_, rfl, reports.of_journal⟩
    · intro param p given parsed
      rw [Machine.call_succ_eq, Machine.enter_of_initialises brings spelled given parsed]
      exact ⟨_, _, rfl, Config.holds_ofParam p⟩

def initRequest (spelling : String) (p : InitParam) : Action :=
  { method := spelling, param := some (Message.pack p) }

/-- The first request is for a dispatcher that has a handler in the way, the second one mentions a
single setting and spells its method with a Kelvin sign, and the third one cannot be read. -/
def partialSetup : List (Choice Demo.Handler) :=
  .start 0 (do
    Act.perform (.register (.named "d") .init (.fail "blocked"))
    let _ ← Act.invoke (.action (.named "d")
      (initRequest "init_token_core_x" { fileDir := "/data", xpubCommonKey := "k" }))
    let _ ← Act.invoke (.action .shared (initRequest "INIT_TO\u212aEN_CORE_X" { xpubCommonIv := "iv" }))
    let _ ← Act.invoke (.action .shared
      { method := "init_token_core_x", param := some ⟨"", [0x0a]⟩ })
    pure []) :: List.replicate 7 (.resume 0)

theorem config_of_run_partialSetup :
    let w := initial.run Demo.code partialSetup
    let p : InitParam := { fileDir := "/new", xpubCommonKey := "k2", xpubCommonIv := "iv2" }
    let c : Call Demo.Handler := .action (.named "d") (initRequest "init_token_core_x" p)
    w.machine.tables (.named "d") .init = some (.fail "blocked") ∧
    LastInitialised { xpubCommonIv := "iv" } w.moves ∧
    (w.machine.config.fileDir = "" ∧ w.machine.config.xpubCommonKey = "" ∧
      w.machine.config.xpubCommonIv = "iv") ∧
    ∃ after, Machine.call Demo.code 1 0 c w.machine = some (.ok [], after) ∧
      after.config.fileDir = "/new" ∧ after.config.xpubCommonKey = "k2" ∧
      after.config.xpubCommonIv = "iv2" ∧ after.lastError = w.machine.lastError := by
  intro w p c
  have blocked : w.machine.tables (.named "d") .init = some (.fail "blocked") := by decide +kernel
  have config : w.machine.config = ⟨"", "", "iv"⟩ := by decide +kernel
  have spelled : Method.parse? "init_token_core_x" = some .init := by decide +kernel
  have known : Message.schemaOf InitParam ∈ Catalog.all := by decide +kernel
  have bound : (Message.encode p).length < 1 <<< 64 := by decide +kernel
  obtain ⟨latest, _, served, _⟩ := config_of_run Demo.code partialSetup
  have last : LastInitialised { xpubCommonIv := "iv" } w.moves := by
    rcases latest 0 with ⟨⟨fileDir, key, iv⟩, last, holds⟩ | ⟨_, empty⟩
    · have holds : Config.Holds ⟨"", "", "iv"⟩ ⟨fileDir, key, iv⟩ := config ▸ holds
      obtain ⟨rfl, rfl, rfl⟩ := holds
      exact last
    · exact absurd (config.symm.trans empty) (by decide)
  obtain ⟨_, _, answered⟩ := served 0 c (.named "d") _ (.action _ _) spelled 0
  obtain ⟨_, _, called, holds⟩ := answered _ p rfl (Message.parse_encode known p bound)
  refine ⟨blocked, last, by simp [config], _, called, ?_⟩
  exact ⟨holds.fileDir, holds.xpubCommonKey, holds.xpubCommonIv, rfl⟩

end World

end Api

end WalletBridge
