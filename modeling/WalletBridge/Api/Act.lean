import WalletBridge.Payload

namespace WalletBridge.Api

abbrev ThreadId := Nat

inductive Target
  | shared
  | named (name : String)
  deriving DecidableEq, Repr

structure Config where
  fileDir : String := ""
  xpubCommonKey : String := ""
  xpubCommonIv : String := ""
  deriving DecidableEq, Repr

def Config.ofParam (p : InitParam) : Config :=
  ⟨p.fileDir, p.xpubCommonKey, p.xpubCommonIv⟩

@[simp] theorem Config.ofParam_fileDir (p : InitParam) : (ofParam p).fileDir = p.fileDir := rfl

@[simp] theorem Config.ofParam_xpubCommonKey (p : InitParam) :
    (ofParam p).xpubCommonKey = p.xpubCommonKey := rfl

@[simp] theorem Config.ofParam_xpubCommonIv (p : InitParam) :
    (ofParam p).xpubCommonIv = p.xpubCommonIv := rfl

inductive Panic
  | text (message : String)
  | unknown
  deriving DecidableEq, Repr

def Panic.message : Panic → String
  | .text message => message
  | .unknown => "unknown_panic"

@[simp] theorem Panic.message_text (message : String) : (text message).message = message := rfl

@[simp] theorem Panic.message_unknown : unknown.message = "unknown_panic" := rfl

inductive Outcome (α : Type)
  | ok (a : α)
  | fail (f : Failure)
  | panic (p : Panic)
  deriving Repr

/-- What is done at once. Handlers go by names from `H`. -/
inductive Effect (H : Type)
  | register (d : Target) (m : Method) (h : H)
  /-- An empty dispatcher, in the place of any other of the name. -/
  | create (name : String)
  | copy (d : Target) (name : String)
  | isRegistered (d : Target) (m : Method)
  | lastError
  | lastErrorMessage
  | clearError
  | config
  | setDebug (on : Bool)
  | encode (s : Schema) (r : s.Record)
  | resolve (a : Any)

def Effect.Reply {H : Type} : Effect H → Type
  | .register .. | .create _ | .copy .. | .clearError | .setDebug _ => Unit
  | .isRegistered .. => Bool
  | .lastError => Option String
  | .lastErrorMessage => String
  | .config => Config
  | .encode .. => Bytes
  | .resolve _ => Except MessageError SignPayload

/-- What runs a handler, or fails before it does. A failure becomes the thread's last error. -/
inductive Call (H : Type)
  | action (d : Target) (a : Action)
  | bytes (d : Target) (b : Bytes)
  | hex (d : Target) (text : String)
  | guarded (h : H) (input : Bytes)

def Call.Reply {H : Type} : Call H → Type
  | .hex .. => String
  | _ => Except Failure Bytes

/-- Hex on both sides, and no text at all on failure. -/
def Call.reply {H : Type} : (c : Call H) → Except Failure Bytes → c.Reply
  | .action .., r | .bytes .., r | .guarded .., r => r
  | .hex .., .ok b => Hex.encode b
  | .hex .., .error _ => ""

abbrev Call.api {H : Type} (text : String) : Call H := .hex .shared text

/-- A program. Each step may be handed to another thread, on which the program waits. -/
inductive Act (H : Type) (α : Type)
  | done (o : Outcome α)
  | effect (on : Option ThreadId) (e : Effect H) (next : e.Reply → Act H α)
  | call (on : Option ThreadId) (c : Call H) (next : c.Reply → Act H α)

namespace Act

variable {H α β : Type}

def bind : Act H α → (α → Act H β) → Act H β
  | .done (.ok a), k => k a
  | .done (.fail f), _ => .done (.fail f)
  | .done (.panic p), _ => .done (.panic p)
  | .effect on e next, k => .effect on e fun r => (next r).bind k
  | .call on c next, k => .call on c fun r => (next r).bind k

instance : Monad (Act H) where
  pure a := .done (.ok a)
  bind := bind

def fail (f : Failure) : Act H α :=
  .done (.fail f)

def panic (p : Panic) : Act H α :=
  .done (.panic p)

def ofExcept {ε : Type} (toFailure : ε → Failure) : Except ε α → Act H α
  | .ok a => pure a
  | .error e => fail (toFailure e)

def perform (e : Effect H) : Act H e.Reply :=
  .effect none e fun r => pure r

def invoke (c : Call H) : Act H c.Reply :=
  .call none c fun r => pure r

def encode {α : Type} [Message α] (a : α) : Act H Bytes :=
  perform (.encode (Message.schemaOf α) (Message.toRecord a))

def payload (p : SignParam) : Act H SignPayload :=
  match p.input with
  | none => fail (.api .paramMissing)
  | some a => do
    let r ← perform (.resolve a)
    ofExcept .message r

end Act

def typedHandler {H : Type} (P R : Schema) (run : P.Record → Act H R.Record) (input : Bytes) :
    Act H Bytes := do
  let p ← Act.ofExcept .decode (P.parse input)
  let r ← run p
  Act.perform (.encode R r)

def messageHandler {H α β : Type} [Message α] [Message β] (run : α → Act H β) (input : Bytes) :
    Act H Bytes := do
  let p ← Act.ofExcept .decode (Message.parse input)
  let r ← run p
  Act.encode r

end WalletBridge.Api
