import WalletBridge.Api.Dispatch

namespace WalletBridge.Api

variable {H : Type}

inductive Move (H : Type)
  | applied (t : ThreadId) (e : Effect H)
  | entered (t : ThreadId) (c : Call H)
  | landed (t : ThreadId) (c : Call H) (o : Outcome Bytes)

def Move.thread : Move H → ThreadId
  | .applied t _ | .entered t _ | .landed t _ _ => t

structure Frame (H : Type) where
  thread : ThreadId
  call : Call H
  next : call.Reply → Act H Bytes

/-- A program and those that wait on it, the innermost first. -/
structure Task (H : Type) where
  thread : ThreadId
  program : Act H Bytes
  frames : List (Frame H)

/-- The next step, unless nothing is left to do. A call is a step of its own, and so is its end, so
programs interleave inside of calls too. -/
def Task.step (code : Code H) (k : Task H) (m : Machine H) :
    Option (Move H × Task H × Machine H) :=
  match k.program with
  | .effect on e next =>
    let t := on.getD k.thread
    let (r, m) := m.apply t e
    some (.applied t e, { k with program := next r }, m)
  | .call on c next =>
    let t := on.getD k.thread
    let (m, body) := m.enter code t c
    some (.entered t c, ⟨t, body, ⟨k.thread, c, next⟩ :: k.frames⟩, m)
  | .done o =>
    match k.frames with
    | [] => none
    | f :: frames =>
      let (r, m) := m.land k.thread o
      some (.landed k.thread f.call o, ⟨f.thread, f.next (f.call.reply r), frames⟩, m)

structure World (H : Type) where
  machine : Machine H
  tasks : List (Task H)
  /-- All steps so far, the latest first. -/
  moves : List (Move H)

inductive Choice (H : Type)
  | start (t : ThreadId) (p : Act H Bytes)
  | resume (task : Nat)

namespace World

def initial : World H :=
  ⟨.initial, [], []⟩

/-- A choice of a task that is over, or of none, changes nothing. -/
def step (code : Code H) (w : World H) : Choice H → World H
  | .start t p => { w with tasks := w.tasks ++ [⟨t, p, []⟩] }
  | .resume i =>
    match w.tasks[i]? with
    | none => w
    | some k =>
      match k.step code w.machine with
      | none => w
      | some (move, k, m) => ⟨m, w.tasks.set i k, move :: w.moves⟩

def run (code : Code H) (w : World H) (choices : List (Choice H)) : World H :=
  choices.foldl (step code) w

end World

end WalletBridge.Api
