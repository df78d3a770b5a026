import WalletBridge.Api.Run

namespace WalletBridge

theorem Action.route_eq_ok_iff {a : Action} {method : Method} {param : Any} :
    a.route = .ok (method, param) ↔ Method.parse? a.method = some method ∧ a.param = some param := by
  unfold route
  cases Method.parse? a.method with
  | none => simp
  | some method => cases a.param <;> simp

namespace Api

variable {H : Type}

inductive Call.Asks : Call H → Target → Method → Any → Prop
  | action {d : Target} {a : Action} {method : Method} {param : Any}
      (routed : a.route = .ok (method, param)) : Asks (.action d a) d method param
  | bytes {d : Target} {b : Bytes} {a : Action} {method : Method} {param : Any}
      (parsed : Message.parse b = .ok a) (routed : a.route = .ok (method, param)) :
      Asks (.bytes d b) d method param
  | hex {d : Target} {text : String} {b : Bytes} {a : Action} {method : Method} {param : Any}
      (decoded : Hex.decodeAuto text = .ok b) (parsed : Message.parse b = .ok a)
      (routed : a.route = .ok (method, param)) : Asks (.hex d text) d method param

/-- The call brings a request to a dispatcher, whether the request can be served or not. -/
inductive Call.Brings : Call H → Target → Action → Prop
  | action (d : Target) (a : Action) : Brings (.action d a) d a
  | bytes {d : Target} {b : Bytes} {a : Action} (parsed : Message.parse b = .ok a) :
      Brings (.bytes d b) d a
  | hex {d : Target} {text : String} {b : Bytes} {a : Action}
      (decoded : Hex.decodeAuto text = .ok b) (parsed : Message.parse b = .ok a) :
      Brings (.hex d text) d a

theorem Call.Brings.asks {c : Call H} {d : Target} {a : Action} {method : Method} {param : Any}
    (brings : c.Brings d a) (routed : a.route = .ok (method, param)) : c.Asks d method param := by
  cases brings with
  | action => exact .action routed
  | bytes parsed => exact .bytes parsed routed
  | hex decoded parsed => exact .hex decoded parsed routed

theorem Call.Asks.brings {c : Call H} {d : Target} {method : Method} {param : Any}
    (asks : c.Asks d method param) : ∃ a, c.Brings d a ∧ a.route = .ok (method, param) := by
  cases asks with
  | action routed => exact ⟨_, .action _ _, routed⟩
  | bytes parsed routed => exact ⟨_, .bytes parsed, routed⟩
  | hex decoded parsed routed => exact ⟨_, .hex decoded parsed, routed⟩

namespace Machine

variable {code : Code H} {m : Machine H} {t : ThreadId} {d : Target}

theorem enter_hex {text : String} {b : Bytes} (decoded : Hex.decodeAuto text = .ok b) :
    m.enter code t (.hex d text) = m.enter code t (.bytes d b) := by
  simp only [enter, decoded]

theorem enter_bytes {b : Bytes} {a : Action} (parsed : Message.parse b = .ok a) :
    m.enter code t (.bytes d b) = m.enter code t (.action d a) := by
  simp only [enter, dispatchBytes, parsed]

theorem enter_of_brings {c : Call H} {a : Action} (brings : c.Brings d a) :
    m.enter code t c = m.dispatch code t (m.tables d) a := by
  cases brings with
  | action => rfl
  | bytes parsed => rw [enter_bytes parsed, enter]
  | hex decoded parsed => rw [enter_hex decoded, enter_bytes parsed, enter]

theorem dump_frame (m : Machine H) (t : ThreadId) (text : String) :
    ∃ journal, m.dump t text = { m with journal } := by
  unfold dump
  split <;> exact ⟨_, rfl⟩

theorem lastErrorMessage_frame (m : Machine H) (t : ThreadId) :
    ∃ journal, (m.lastErrorMessage t).2 = { m with journal } := by
  unfold lastErrorMessage
  split
  · exact ⟨_, rfl⟩
  · exact dump_frame ..

def handling (code : Code H) (method : Method) (param : Any) : Option H → Act H Bytes
  | some h => code h param.value
  | none => .fail (.api (.handlerNotRegistered method))

theorem enter_of_asks {c : Call H} {method : Method} {param : Any} (asks : c.Asks d method param)
    (served : method ≠ .init) :
    m.enter code t c =
      (m.record t (.dispatched method param.typeUrl),
        handling code method param (m.tables d method)) := by
  obtain ⟨a, brings, routed⟩ := asks.brings
  simp only [enter_of_brings brings, dispatch, routed, if_neg served]
  cases m.tables d method <;> rfl

end Machine

inductive Call.Entry (c : Call H) : Prop
  | rejected (f : Failure)
      (enters : ∀ (code : Code H) (m : Machine H) t, m.enter code t c = (m, .fail f))
  | unreadable {d : Target} {param : Any} (e : Wire.DecodeError) (asks : c.Asks d .init param)
      (failed : (Message.parse param.value : Except _ InitParam) = .error e)
      (enters : ∀ (code : Code H) (m : Machine H) t, m.enter code t c =
        (m.record t (.dispatched .init param.typeUrl), .fail (.decode e)))
  | initialising {d : Target} {param : Any} (p : InitParam) (asks : c.Asks d .init param)
      (parsed : Message.parse param.value = .ok p)
      (enters : ∀ (code : Code H) (m : Machine H) t, m.enter code t c =
        ((m.record t (.dispatched .init param.typeUrl)).configure t p, pure []))
  | served {d : Target} {method : Method} {param : Any} (asks : c.Asks d method param)
      (other : method ≠ .init)
      (enters : ∀ (code : Code H) (m : Machine H) t, m.enter code t c =
        (m.record t (.dispatched method param.typeUrl),
          Machine.handling code method param (m.tables d method)))
  | direct (h : H) (input : Bytes)
      (enters : ∀ (code : Code H) (m : Machine H) t, m.enter code t c = (m, code h input))

theorem Call.Brings.entry {c : Call H} {d : Target} {a : Action} (brings : c.Brings d a) :
    c.Entry := by
  cases routed : a.route with
  | error f =>
    refine .rejected f fun code m t => ?_
    simp only [Machine.enter_of_brings brings, Machine.dispatch, routed]
  | ok asked =>
    obtain ⟨method, param⟩ := asked
    have asks := brings.asks routed
    by_cases init : method = .init
    · subst init
      cases parsed : (Message.parse param.value : Except _ InitParam) with
      | error e =>
        refine .unreadable e asks parsed fun code m t => ?_
        simp only [Machine.enter_of_brings brings, Machine.dispatch, routed, if_true, parsed]
      | ok p =>
        refine .initialising p asks parsed fun code m t => ?_
        simp only [Machine.enter_of_brings brings, Machine.dispatch, routed, if_true, parsed]
    · exact .served asks init fun code m t => Machine.enter_of_asks asks init

theorem Call.entry (c : Call H) : c.Entry := by
  cases c with
  | action d a => exact (Brings.action d a).entry
  | bytes d b =>
    cases parsed : (Message.parse b : Except _ Action) with
    | error e =>
      refine .rejected (.decode e) fun code m t => ?_
      simp only [Machine.enter, Machine.dispatchBytes, parsed]
    | ok a => exact (Brings.bytes parsed).entry
  | hex d text =>
    cases decoded : Hex.decodeAuto text with
    | error e =>
      refine .rejected (.hex e) fun code m t => ?_
      simp only [Machine.enter, decoded]
    | ok b =>
      cases parsed : (Message.parse b : Except _ Action) with
      | error e =>
        refine .rejected (.decode e) fun code m t => ?_
        simp only [Machine.enter, decoded, Machine.dispatchBytes, parsed]
      | ok a => exact (Brings.hex decoded parsed).entry
  | guarded h input => exact .direct h input fun _ _ _ => rfl

namespace Machine

variable {code : Code H} {m m' : Machine H} {t : ThreadId}

/-- Dispatchers, last errors and the debug flag are as they were when a call begins. -/
theorem enter_frame (code : Code H) (m : Machine H) (t : ThreadId) (c : Call H) :
    ∃ config journal, (m.enter code t c).1 = { m with config, journal } := by
  cases c.entry with
  | rejected f enters | unreadable e asks failed enters | initialising p asks parsed enters
  | served asks other enters | direct h input enters =>
    rw [enters]
    exact ⟨_, _, rfl⟩

/-- The program that a call runs depends on the dispatchers alone. -/
theorem enter_snd_congr (same : m.tables = m'.tables) (c : Call H) :
    (m.enter code t c).2 = (m'.enter code t c).2 := by
  cases c.entry with
  | served asks other enters => rw [enters, enters, same]
  | rejected f enters | unreadable e asks failed enters | initialising p asks parsed enters
  | direct h input enters => rw [enters, enters]

def serve (code : Code H) (depth : Nat) (t : ThreadId) (entered : Machine H × Act H Bytes) :
    Option (Except Failure Bytes × Machine H) :=
  (entered.2.run (Machine.call code depth) t entered.1).map fun (o, m) => m.land t o

theorem call_succ_eq (code : Code H) (depth : Nat) (t : ThreadId) (c : Call H) (m : Machine H) :
    Machine.call code (depth + 1) t c m =
      (serve code depth t (m.enter code t c)).map fun (r, after) => (c.reply r, after) := by
  rw [Machine.call, serve]
  obtain ⟨entered, body⟩ := m.enter code t c
  cases ran : body.run (Machine.call code depth) t entered <;> simp only [ran] <;> rfl

end Machine

end Api

end WalletBridge
