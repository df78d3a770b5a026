import WalletBridge.Api.Dispatch

namespace WalletBridge.Api

variable {H α : Type}

def Act.run (answer : ThreadId → (c : Call H) → Machine H → Option (c.Reply × Machine H))
    (t : ThreadId) : Act H α → Machine H → Option (Outcome α × Machine H)
  | .done o, m => some (o, m)
  | .effect on e next, m =>
    let (r, m) := m.apply (on.getD t) e
    (next r).run answer t m
  | .call on c next, m =>
    match answer (on.getD t) c m with
    | none => none
    | some (r, m) => (next r).run answer t m

/-- The reply to a call, if calls nest at most `depth` deep. -/
def Machine.call (code : Code H) :
    (depth : Nat) → ThreadId → (c : Call H) → Machine H → Option (c.Reply × Machine H)
  | 0, _, _, _ => none
  | depth + 1, t, c, m =>
    let (m, body) := m.enter code t c
    match body.run (Machine.call code depth) t m with
    | none => none
    | some (o, m) =>
      let (r, m) := m.land t o
      some (c.reply r, m)

def Act.exec (code : Code H) (depth : Nat) (t : ThreadId) (p : Act H α) (m : Machine H) :
    Option (Outcome α × Machine H) :=
  p.run (Machine.call code depth) t m

end WalletBridge.Api
