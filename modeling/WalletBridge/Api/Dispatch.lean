import WalletBridge.Api.Machine

namespace WalletBridge

def Action.route (a : Action) : Except Failure (Method × Any) :=
  match Method.parse? a.method with
  | none => .error (.api .unsupportedMethod)
  | some method =>
    match a.param with
    | none => .error (.api .paramMissing)
    | some param => .ok (method, param)

namespace Api

/-- What each handler does with the bytes of its parameter. Handlers have no state of their own: one that
is to remember something has to leave it in the machine. -/
abbrev Code (H : Type) := H → Bytes → Act H Bytes

namespace Machine

variable {H : Type}

/-- A request for initialisation is served here and now, whatever the table says. Any other one
comes down to the handler that the table has at this moment. -/
def dispatch (code : Code H) (m : Machine H) (t : ThreadId) (table : Table H) (a : Action) :
    Machine H × Act H Bytes :=
  match a.route with
  | .error f => (m, .fail f)
  | .ok (method, param) =>
    let m := m.record t (.dispatched method param.typeUrl)
    if method = .init then
      match (Message.parse param.value : Except _ InitParam) with
      | .error e => (m, .fail (.decode e))
      | .ok p => (m.configure t p, pure [])
    else
      match table method with
      | none => (m, .fail (.api (.handlerNotRegistered method)))
      | some h => (m, code h param.value)

def dispatchBytes (code : Code H) (m : Machine H) (t : ThreadId) (table : Table H) (b : Bytes) :
    Machine H × Act H Bytes :=
  match (Message.parse b : Except _ Action) with
  | .error e => (m, .fail (.decode e))
  | .ok a => m.dispatch code t table a

def enter (code : Code H) (m : Machine H) (t : ThreadId) : Call H → Machine H × Act H Bytes
  | .action d a => m.dispatch code t (m.tables d) a
  | .bytes d b => m.dispatchBytes code t (m.tables d) b
  | .hex d text =>
    match Hex.decodeAuto text with
    | .error e => (m, .fail (.hex e))
    | .ok b => m.dispatchBytes code t (m.tables d) b
  | .guarded h input => (m, code h input)

/-- A failure or a panic ends here, as the thread's last error. -/
def land (m : Machine H) (t : ThreadId) : Outcome Bytes → Except Failure Bytes × Machine H
  | .ok b => (.ok b, m)
  | .fail f => (.error f, m.notifyFailure t f)
  | .panic p =>
    let f := Failure.other p.message []
    (.error f, m.notifyFailure t f)

end Machine

end Api

end WalletBridge
