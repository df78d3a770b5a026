import WalletBridge.Proofs.Demo
import WalletBridge.Proofs.Api.HandlerTable
import WalletBridge.Proofs.Api.Reporting
import WalletBridge.Proofs.Schema.WireRoundTrip

namespace WalletBridge

namespace Action

def carrying {P : Schema} (p : P.Record) (spelling typeUrl : String) : Action :=
  { method := spelling, param := some ⟨typeUrl, P.encode p⟩ }

theorem route_carrying {P : Schema} {p : P.Record} {method : Method} {spelling typeUrl : String}
    (spelled : Method.parse? spelling = some method) :
    (carrying p spelling typeUrl).route = .ok (method, ⟨typeUrl, P.encode p⟩) := by
  simp only [carrying, route, spelled]

end Action

namespace Api

variable {H : Type}

namespace Act

def encoded {R : Schema} (p : Act H R.Record) : Act H Bytes := do
  let r ← p
  perform (.encode R r)

theorem run_encoded {R : Schema}
    (answer : ThreadId → (c : Call H) → Machine H → Option (c.Reply × Machine H)) (t : ThreadId)
    (p : Act H R.Record) (m : Machine H) :
    (encoded p).run answer t m = (p.run answer t m).map fun
      | (.ok r, after) => (.ok (R.encode r), after.dump t (R.dump r))
      | (.fail f, after) => (.fail f, after)
      | (.panic x, after) => (.panic x, after) := by
  induction p generalizing m with
  | done o => cases o <;> rfl
  | effect on e next ih => exact ih _ _
  | call on c next ih =>
    have steps : (encoded (.call on c next)).run answer t m =
        (Act.call on c fun r => (next r).encoded).run answer t m := rfl
    rw [steps, run, run]
    cases answer (on.getD t) c m with
    | none => rfl
    | some reply => exact ih _ _

end Act

theorem typedHandler_encode {P R : Schema} (known : P ∈ Catalog.all)
    (run : P.Record → Act H R.Record) (p : P.Record) (bound : (P.encode p).length < 1 <<< 64) :
    typedHandler P R run (P.encode p) = (run p).encoded := by
  rw [typedHandler, P.parse_encode (Catalog.wellFormed known) p bound]
  rfl

theorem messageHandler_eq_typedHandler {α β : Type} [Message α] [Message β] (run : α → Act H β) :
    messageHandler run = typedHandler (Message.schemaOf α) (Message.schemaOf β) fun p =>
      run (Message.ofRecord p) >>= fun b => pure (Message.toRecord b) := by
  have encodes (q : Act H β) :
      q.bind Act.encode = (q.bind fun b => pure (Message.toRecord b)).encoded := by
    induction q with
    | done o => cases o <;> rfl
    | effect on e next ih => exact congrArg (Act.effect on e) (funext ih)
    | call on c next ih => exact congrArg (Act.call on c) (funext ih)
  funext input
  rw [messageHandler, typedHandler, Message.parse]
  cases (Message.schemaOf α).parse input with
  | error e => rfl
  | ok p => exact encodes (run (Message.ofRecord p))

def typedEnd (R : Schema) (t : ThreadId) :
    Outcome R.Record × Machine H → Except Failure Bytes × Machine H
  | (.ok r, after) => (.ok (R.encode r), after.dump t (R.dump r))
  | (.fail f, after) => (.error f, after.notifyFailure t f)
  | (.panic (.text text), after) =>
    (.error (.other text []), after.notifyFailure t (.other text []))
  | (.panic .unknown, after) =>
    (.error (.other "unknown_panic" []), after.notifyFailure t (.other "unknown_panic" []))

/-- The answer to a call whose handler came to an end, and what is left of the state at this end. -/
inductive Answered (R : Schema) (t : ThreadId) (ended : Machine H) :
    Outcome R.Record → Except Failure Bytes → Machine H → Prop
  | ok {r : R.Record} {journal : List (Event H)} :
      Answered R t ended (.ok r) (.ok (R.encode r)) { ended with journal }
  | fail {f : Failure} {text : String} {final : Machine H} (reads : f.Reads text)
      (reports : ended.Reports final t text) : Answered R t ended (.fail f) (.error f) final
  | text {text : String} {final : Machine H} (reports : ended.Reports final t text) :
      Answered R t ended (.panic (.text text)) (.error (.other text [])) final
  | unknown {final : Machine H} (reports : ended.Reports final t "unknown_panic") :
      Answered R t ended (.panic .unknown) (.error (.other "unknown_panic" [])) final

theorem answered_typedEnd (R : Schema) (t : ThreadId) (o : Outcome R.Record) (ended : Machine H) :
    Answered R t ended o (typedEnd R t (o, ended)).1 (typedEnd R t (o, ended)).2 := by
  cases o with
  | ok r =>
    obtain ⟨journal, dumped⟩ := ended.dump_frame t (R.dump r)
    rw [typedEnd, dumped]
    exact .ok
  | fail f => exact .fail f.reads_text (Machine.reports_notifyFailure f.reads_text)
  | panic x =>
    cases x with
    | text text => exact .text (Machine.reports_notifyFailure .other)
    | unknown => exact .unknown (Machine.reports_notifyFailure .other)

namespace Machine

variable {code : Code H} {m : Machine H} {t : ThreadId} {d : Target}

theorem call_encoded {a : Action} {entered : Machine H} {R : Schema} {p : Act H R.Record}
    (enters : m.enter code t (.action d a) = (entered, p.encoded)) (depth : Nat) :
    call code (depth + 1) t (.action d a) m =
      (p.run (call code depth) t entered).map (typedEnd R t) := by
  rw [call_succ_eq, enters, serve, Act.run_encoded]
  cases p.run (call code depth) t entered with
  | none => rfl
  | some result =>
    obtain ⟨o, after⟩ := result
    cases o with
    | ok r | fail f => rfl
    | panic x => cases x <;> rfl

/-- Requests that run the same program from machines which differ in the journal only. -/
theorem matches_of_enter {a a' : Action} {entered entered' : Machine H} {body : Act H Bytes}
    {base base' : List (Event H)}
    (enters : m.enter code t (.action d a) = (entered, body))
    (enters' : m.enter code t (.action d a') = (entered', body))
    (agree : AgreeOn (fun _ => True) base base' entered entered') (depth : Nat) :
    Matches (AgreeOn (fun _ => True) base base') (call code depth t (.action d a) m)
      (call code depth t (.action d a') m) := by
  have everyEffect (e : Effect H) : e.StaysOn fun _ => True := by
    cases e <;> first | exact trivial | exact ⟨trivial, trivial⟩
  have everyCall (c : Call H) : c.StaysOn fun _ => True := by
    cases c <;> exact trivial
  have within (p : Act H Bytes) := Act.within_of_forall everyEffect everyCall p
  have sim : Simulation code (Effect.StaysOn fun _ => True) (Call.StaysOn fun _ => True)
      (AgreeOn (fun _ => True) base base') :=
    Simulation.agreeOn fun h input => within (code h input)
  cases depth with
  | zero => exact .none
  | succ depth =>
    have served := sim.serve (fun related t c within => sim.call depth related t c within)
      (within body) agree t
    rw [call_succ_eq, call_succ_eq, enters, enters']
    exact served.map _

end Machine

namespace World

/-- A request for a method runs the typed handler that was registered last for it, once and on the
message that was sent, whether the call is served at once or step by step among others. It is answered
with the encoding of the handler's result, which reads as just this result, with its failure, or with
the text of its panic. The type URL and the spelling of the method show in the journal's entry for
the call and nowhere else. No buffer is longer than a word of 64 bits counts. -/
theorem typed_call_of_run {code : Code H} {choices : List (Choice H)} {method : Method} {h : H}
    {d : Target} {P R : Schema} {run : P.Record → Act H R.Record}
    (registered : Registered method h d (initial.run code choices).moves)
    (typed : code h = typedHandler P R run) (served : method ≠ .init) (knownParam : P ∈ Catalog.all)
    (knownResult : R ∈ Catalog.all) (p : P.Record) (bound : (P.encode p).length < 1 <<< 64)
    (t : ThreadId) (depth : Nat) :
    let w : World H := initial.run code choices
    let request (spelling typeUrl : String) : Call H := .action d (.carrying p spelling typeUrl)
    (∀ s u, Method.parse? s = some method →
      Machine.call code (depth + 1) t (request s u) w.machine =
        ((run p).run (Machine.call code depth) t (w.machine.record t (.dispatched method u))).map
          (typedEnd R t) ∧
      (∀ o ended, (run p).run (Machine.call code depth) t
          (w.machine.record t (.dispatched method u)) = some (o, ended) →
        ∃ reply final, Machine.call code (depth + 1) t (request s u) w.machine = some (reply, final) ∧
          Answered R t ended o reply final) ∧
      ∀ i, (w.step code (.resume i)).moves = .entered t (request s u) :: w.moves →
        ∃ f frames, f.call = request s u ∧
          (w.step code (.resume i)).tasks[i]? = some ⟨t, (run p).encoded, f :: frames⟩ ∧
          (w.step code (.resume i)).WorksOff code i t (run p).encoded (f :: frames)) ∧
    (∀ r, (R.encode r).length < 1 <<< 64 → R.parse (R.encode r) = .ok r) ∧
    ∀ s u s' u', Method.parse? s = some method → Method.parse? s' = some method →
      Matches (Machine.AgreeOn (fun _ => True) (⟨t, .dispatched method u⟩ :: w.machine.journal)
          (⟨t, .dispatched method u'⟩ :: w.machine.journal))
        (Machine.call code depth t (request s u) w.machine)
        (Machine.call code depth t (request s' u') w.machine) := by
  intro w request
  have entry : w.machine.tables d method = some h := (tables_run_iff code choices).mpr registered
  have enters (s u : String) (spelled : Method.parse? s = some method) :
      w.machine.enter code t (request s u) =
        (w.machine.record t (.dispatched method u), (run p).encoded) := by
    rw [Machine.enter_of_asks (.action (Action.route_carrying spelled)) served, entry, Machine.handling, typed,
      typedHandler_encode knownParam run p bound]
  refine ⟨?_, ?_, ?_⟩
  · intro s u spelled
    have served := Machine.call_encoded (enters s u spelled) depth
    refine ⟨served, ?_, ?_⟩
    · intro o ended ran
      rw [ran, Option.map_some] at served
      exact ⟨_, _, served, answered_typedEnd R t o ended⟩
    · intro i entered
      obtain ⟨f, frames, called, found⟩ := entered_of_moves entered
      rw [enters s u spelled] at found
      exact ⟨f, frames, called, found, worksOff_of_amid found (.running .refl)⟩
  · exact R.parse_encode (Catalog.wellFormed knownResult)
  · intro s u s' u' spelled spelled'
    refine Machine.matches_of_enter (enters s u spelled) (enters s' u' spelled') ?_ depth
    exact ⟨fun _ _ => rfl, rfl, rfl, rfl, [], rfl, rfl⟩

/-- A thread sets up the two handlers that a request for a derived key needs, and one that panics if it
is asked for the addresses of no wallet. -/
def derivedKeySetup : List (Choice Demo.Handler) :=
  [.start 0 (do
      Act.perform (.register .shared .keystoreCommonVerify .verifyPassword)
      Act.perform (.register .shared .getDerivedKey .reenter)
      Act.perform (.register .shared .calcExternalAddress .externalAddress)
      pure []),
    .resume 0, .resume 0, .resume 0]

theorem typed_call_of_run_derivedKeySetup :
    let w := initial.run Demo.code derivedKeySetup
    let p := Message.toRecord ({ id := "w1", password := "imToken1" } : WalletKeyParam)
    let asked (spelling typeUrl : String) : Call Demo.Handler :=
      .action .shared (.carrying p spelling typeUrl)
    let result : DerivedKeyResult := { id := "w1", derivedKey := "derived" }
    (Machine.call Demo.code 3 0 (asked "get_derived_key" "imtoken") w.machine).map
      (fun (reply, _) => reply.toOption) = some (some (Message.encode result)) ∧
    Registered .getDerivedKey .reenter .shared w.moves ∧
    Matches (Machine.AgreeOn (fun _ => True)
        (⟨0, .dispatched .getDerivedKey "imtoken"⟩ :: w.machine.journal)
        (⟨0, .dispatched .getDerivedKey "x"⟩ :: w.machine.journal))
      (Machine.call Demo.code 3 0 (asked "get_derived_key" "imtoken") w.machine)
      (Machine.call Demo.code 3 0 (asked "GET_DERIVED_KEY" "x") w.machine) ∧
    ∃ final, Machine.call Demo.code 1 0 (.action .shared
        (.carrying (Message.toRecord ({} : ExternalAddressParam)) "calc_external_address" "x"))
        w.machine = some (.error (.other "wallet_not_found" []), final) ∧
      final.lastError 0 = some "wallet_not_found" := by
  intro w p asked result
  have answered : (Machine.call Demo.code 3 0 (asked "get_derived_key" "imtoken") w.machine).map
      (fun (reply, _) => reply.toOption) = some (some (Message.encode result)) := by
    decide +kernel
  have registered : Registered .getDerivedKey .reenter .shared w.moves :=
    .before _ (.now 0 .shared _) (by rintro ⟨_, same⟩; cases same)
  have typed := messageHandler_eq_typedHandler Demo.reenter
  have knownParam : Message.schemaOf WalletKeyParam ∈ Catalog.all := by decide +kernel
  have knownResult : Message.schemaOf DerivedKeyResult ∈ Catalog.all := by decide +kernel
  have bound : ((Message.schemaOf WalletKeyParam).encode p).length < 1 <<< 64 := by decide +kernel
  obtain ⟨_, _, independent⟩ := typed_call_of_run registered typed nofun knownParam knownResult p
    bound 0 3
  have plain : Method.parse? "get_derived_key" = some .getDerivedKey := by decide +kernel
  have capitals : Method.parse? "GET_DERIVED_KEY" = some .getDerivedKey := by decide +kernel
  refine ⟨answered, registered, independent _ "imtoken" _ "x" plain capitals, ?_⟩
  have panics := messageHandler_eq_typedHandler Demo.externalAddress
  have knownParam : Message.schemaOf ExternalAddressParam ∈ Catalog.all := by decide +kernel
  have knownResult : Message.schemaOf ExternalAddressResult ∈ Catalog.all := by decide +kernel
  have bound : (Message.encode ({} : ExternalAddressParam)).length < 1 <<< 64 := by decide +kernel
  have spelled : Method.parse? "calc_external_address" = some .calcExternalAddress := by decide +kernel
  have registered : Registered .calcExternalAddress .externalAddress .shared w.moves :=
    .now 0 .shared _
  obtain ⟨calls, _⟩ := typed_call_of_run registered panics nofun knownParam knownResult
    (Message.toRecord {}) bound 0 0
  obtain ⟨_, ends, _⟩ := calls _ "x" spelled
  obtain ⟨reply, final, called, ended⟩ := ends (.panic (.text "wallet_not_found")) _ rfl
  cases ended with
  | text reports => exact ⟨final, called, reports.own⟩

end World

end Api

end WalletBridge
