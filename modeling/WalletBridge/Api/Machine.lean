import WalletBridge.Api.Act

namespace WalletBridge.Api

abbrev Table (H : Type) := Method → Option H

inductive Happening (H : Type)
  | registered (d : Target) (m : Method) (h : H)
  | created (name : String)
  | copied (d : Target) (name : String)
  | dispatched (m : Method) (typeUrl : String)
  | configured (p : InitParam)
  | unpacked (typeUrl : String) (size : Nat)
  | kept (typeUrl : String)
  | dumped (text : String)
  | failed (f : Failure)
  | cleared

def Happening.line? {H : Type} : Happening H → Option String
  | .registered .. | .created _ | .copied .. | .cleared => none
  | .dispatched m typeUrl => some ("DEBUG dispatch " ++ m.name ++ " with " ++ typeUrl)
  | .configured p => some ("INFO init token core x, file dir: " ++ p.fileDir)
  | .unpacked typeUrl size =>
    some ("TRACE unpack " ++ typeUrl ++ " (" ++ toString size ++ " bytes)")
  | .kept typeUrl => some ("TRACE keep " ++ typeUrl ++ " as opaque payload")
  | .dumped text => some ("DEBUG " ++ text)
  | .failed f => some ("WARN call failed: " ++ f.report)

structure Event (H : Type) where
  thread : ThreadId
  what : Happening H

structure Machine (H : Type) where
  tables : Target → Table H
  config : Config
  debug : Bool
  lastError : ThreadId → Option String
  /-- Everything that happened, the latest first. -/
  journal : List (Event H)

namespace Machine

variable {H : Type}

def initial : Machine H :=
  ⟨fun _ _ => none, {}, false, fun _ => none, []⟩

def record (m : Machine H) (t : ThreadId) (what : Happening H) : Machine H :=
  { m with journal := ⟨t, what⟩ :: m.journal }

section

variable (m : Machine H) (t : ThreadId) (what : Happening H)

@[simp] theorem record_tables : (m.record t what).tables = m.tables := rfl

@[simp] theorem record_config : (m.record t what).config = m.config := rfl

@[simp] theorem record_lastError : (m.record t what).lastError = m.lastError := rfl

end

/-- The log lines since the journal had `n` entries, the earliest first. -/
def logSince (m : Machine H) (n : Nat) : List String :=
  ((m.journal.take (m.journal.length - n)).filterMap fun e => e.what.line?).reverse

def log (m : Machine H) : List String :=
  m.logSince 0

def setTable (m : Machine H) (d : Target) (table : Table H) : Machine H :=
  { m with tables := fun d' => if d' = d then table else m.tables d' }

@[simp] theorem setTable_self (m : Machine H) (d : Target) (table : Table H) :
    (m.setTable d table).tables d = table := if_pos rfl

@[simp] theorem setTable_of_ne (m : Machine H) {d d' : Target} (table : Table H) (other : d' ≠ d) :
    (m.setTable d table).tables d' = m.tables d' := if_neg other

def setLastError (m : Machine H) (t : ThreadId) (error : Option String) : Machine H :=
  { m with lastError := fun t' => if t' = t then error else m.lastError t' }

section

variable (m : Machine H) (t : ThreadId) (error : Option String)

@[simp] theorem setLastError_self : (m.setLastError t error).lastError t = error := if_pos rfl

@[simp] theorem setLastError_of_ne {u : ThreadId} (other : u ≠ t) :
    (m.setLastError t error).lastError u = m.lastError u := if_neg other

@[simp] theorem setLastError_tables : (m.setLastError t error).tables = m.tables := rfl

@[simp] theorem setLastError_config : (m.setLastError t error).config = m.config := rfl

@[simp] theorem setLastError_debug : (m.setLastError t error).debug = m.debug := rfl

end

def register (m : Machine H) (t : ThreadId) (d : Target) (method : Method) (h : H) : Machine H :=
  (m.setTable d fun method' => if method' = method then some h else m.tables d method').record t
    (.registered d method h)

/-- Initialisation needs no handler. -/
def isRegistered (m : Machine H) (d : Target) (method : Method) : Bool :=
  method == .init || (m.tables d method).isSome

def dump (m : Machine H) (t : ThreadId) (text : String) : Machine H :=
  if m.debug then m.record t (.dumped text) else m

def configure (m : Machine H) (t : ThreadId) (p : InitParam) : Machine H :=
  { m with config := .ofParam p }.record t (.configured p)

@[simp] theorem configure_config (m : Machine H) (t : ThreadId) (p : InitParam) :
    (m.configure t p).config = .ofParam p := rfl

def clearError (m : Machine H) (t : ThreadId) : Machine H :=
  (m.setLastError t none).record t .cleared

def notifyFailure (m : Machine H) (t : ThreadId) (f : Failure) : Machine H :=
  (m.setLastError t (some f.text)).record t (.failed f)

section

variable (m : Machine H) (t : ThreadId) (f : Failure)

@[simp] theorem notifyFailure_self : (m.notifyFailure t f).lastError t = some f.text :=
  setLastError_self ..

@[simp] theorem notifyFailure_of_ne {u : ThreadId} (other : u ≠ t) :
    (m.notifyFailure t f).lastError u = m.lastError u :=
  setLastError_of_ne _ _ _ other

@[simp] theorem notifyFailure_tables : (m.notifyFailure t f).tables = m.tables :=
  m.setLastError_tables t (some f.text)

@[simp] theorem notifyFailure_config : (m.notifyFailure t f).config = m.config :=
  m.setLastError_config t (some f.text)

@[simp] theorem notifyFailure_debug : (m.notifyFailure t f).debug = m.debug :=
  m.setLastError_debug t (some f.text)

@[simp] theorem notifyFailure_journal :
    (m.notifyFailure t f).journal = ⟨t, .failed f⟩ :: m.journal := rfl

end

def errorResponse (error : String) : Response :=
  { isSuccess := false, error }

def lastErrorMessage (m : Machine H) (t : ThreadId) : String × Machine H :=
  match m.lastError t with
  | none => ("", m)
  | some error =>
    let response := errorResponse error
    (Hex.encode (Message.encode response), m.dump t (Message.dump response))

def resolution (a : Any) : Happening H :=
  if SignPayload.names BtcForkTxInput a || SignPayload.names TronTxInput a ||
      SignPayload.names TronMessageInput a then
    .unpacked a.typeUrl a.value.length
  else .kept a.typeUrl

def apply (m : Machine H) (t : ThreadId) : (e : Effect H) → e.Reply × Machine H
  | .register d method h => ((), m.register t d method h)
  | .create name => ((), (m.setTable (.named name) fun _ => none).record t (.created name))
  | .copy d name => ((), (m.setTable (.named name) (m.tables d)).record t (.copied d name))
  | .isRegistered d method => (m.isRegistered d method, m)
  | .lastError => (m.lastError t, m)
  | .lastErrorMessage => m.lastErrorMessage t
  | .clearError => ((), m.clearError t)
  | .config => (m.config, m)
  | .setDebug on => ((), { m with debug := on })
  | .encode s r => (s.encode r, m.dump t (s.dump r))
  | .resolve a => (SignPayload.ofAny a, m.record t (resolution a))

end Machine

end WalletBridge.Api
