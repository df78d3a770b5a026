import WalletBridge.Proofs.Api.Request

namespace WalletBridge.Api

variable {H α β : Type} {effects : Effect H → Prop} {calls : Call H → Prop}

def Act.Within (effects : Effect H → Prop) (calls : Call H → Prop) : Act H α → Prop
  | .done _ => True
  | .effect _ e next => effects e ∧ ∀ r, (next r).Within effects calls
  | .call _ c next => calls c ∧ ∀ r, (next r).Within effects calls

def Code.Within (effects : Effect H → Prop) (calls : Call H → Prop) (code : Code H) : Prop :=
  ∀ h input, (code h input).Within effects calls

theorem Act.within_of_forall (everyEffect : ∀ e, effects e) (everyCall : ∀ c, calls c)
    (p : Act H α) : p.Within effects calls := by
  induction p with
  | done o => trivial
  | effect on e next ih => exact ⟨everyEffect e, ih⟩
  | call on c next ih => exact ⟨everyCall c, ih⟩

theorem Act.within_bind {p : Act H α} {next : α → Act H β} (first : p.Within effects calls)
    (rest : ∀ a, (next a).Within effects calls) : (p >>= next).Within effects calls := by
  change (p.bind next).Within effects calls
  induction p with
  | done o =>
    cases o with
    | ok a => exact rest a
    | fail f => trivial
    | panic x => trivial
  | effect on e later ih => exact ⟨first.1, fun r => ih r (first.2 r)⟩
  | call on c later ih => exact ⟨first.1, fun r => ih r (first.2 r)⟩

theorem Act.within_pure (a : α) : (pure a : Act H α).Within effects calls := trivial

theorem Act.within_perform {e : Effect H} (within : effects e) :
    (Act.perform e).Within effects calls :=
  ⟨within, fun _ => trivial⟩

theorem Act.within_invoke {c : Call H} (within : calls c) : (Act.invoke c).Within effects calls :=
  ⟨within, fun _ => trivial⟩

theorem Act.within_ofExcept {ε : Type} (toFailure : ε → Failure) (x : Except ε α) :
    (Act.ofExcept toFailure x : Act H α).Within effects calls := by
  cases x <;> trivial

theorem typedHandler_within (encodes : ∀ s r, effects (.encode s r)) {P R : Schema}
    {run : P.Record → Act H R.Record} (body : ∀ p, (run p).Within effects calls) (input : Bytes) :
    (typedHandler P R run input).Within effects calls := by
  refine Act.within_bind (Act.within_ofExcept ..) fun p => Act.within_bind (body p) fun r => ?_
  exact Act.within_perform (encodes R r)

theorem messageHandler_within (encodes : ∀ s r, effects (.encode s r)) {α β : Type} [Message α]
    [Message β] {run : α → Act H β} (body : ∀ a, (run a).Within effects calls) (input : Bytes) :
    (messageHandler run input).Within effects calls := by
  refine Act.within_bind (Act.within_ofExcept ..) fun a => Act.within_bind (body a) fun b => ?_
  exact Act.within_perform (encodes _ _)

theorem Act.payload_within (resolves : ∀ a, effects (.resolve a)) (p : SignParam) :
    (Act.payload p : Act H SignPayload).Within effects calls := by
  unfold Act.payload
  split
  · trivial
  · exact Act.within_bind (Act.within_perform (resolves _)) fun r => Act.within_ofExcept ..

namespace Machine

theorem enter_within {code : Code H} (known : code.Within effects calls) (m : Machine H)
    (t : ThreadId) (c : Call H) : (m.enter code t c).2.Within effects calls := by
  cases c.entry with
  | rejected f enters | unreadable e asks failed enters | initialising p asks parsed enters =>
    rw [enters]
    trivial
  | @served d method param asks other enters =>
    rw [enters]
    cases m.tables d method with
    | none => trivial
    | some h => exact known h param.value
  | direct h input enters =>
    rw [enters]
    exact known h input

theorem land_fst (m m' : Machine H) (t : ThreadId) (o : Outcome Bytes) :
    (m.land t o).1 = (m'.land t o).1 := by
  cases o <;> rfl

end Machine

/-- No end at all on both sides, or ends with the same result and related machines. -/
def Matches (R : Machine H → Machine H → Prop) (x y : Option (α × Machine H)) : Prop :=
  Option.Rel (fun x y => x.1 = y.1 ∧ R x.2 y.2) x y

theorem Matches.map {R : Machine H → Machine H → Prop} {x y : Option (α × Machine H)}
    (same : Matches R x y) (f : α → β) :
    Matches R (x.map fun (a, m) => (f a, m)) (y.map fun (a, m) => (f a, m)) := by
  cases same with
  | none => exact .none
  | some ends => exact .some ⟨congrArg f ends.1, ends.2⟩

/-- What single steps have to do for a relation to be kept by programs. -/
structure Simulation (code : Code H) (effects : Effect H → Prop) (calls : Call H → Prop)
    (R : Machine H → Machine H → Prop) : Prop where
  known : code.Within effects calls
  apply {m m' : Machine H} (related : R m m') (t : ThreadId) (e : Effect H) (within : effects e) :
    (m.apply t e).1 = (m'.apply t e).1 ∧ R (m.apply t e).2 (m'.apply t e).2
  enter {m m' : Machine H} (related : R m m') (t : ThreadId) (c : Call H) (within : calls c) :
    (m.enter code t c).2 = (m'.enter code t c).2 ∧ R (m.enter code t c).1 (m'.enter code t c).1
  land {m m' : Machine H} (related : R m m') (t : ThreadId) (o : Outcome Bytes) :
    R (m.land t o).2 (m'.land t o).2

namespace Simulation

variable {code : Code H} {R : Machine H → Machine H → Prop}

theorem run (sim : Simulation code effects calls R)
    {answer answer' : ThreadId → (c : Call H) → Machine H → Option (c.Reply × Machine H)}
    (answers : ∀ {m m'}, R m m' → ∀ t c, calls c → Matches R (answer t c m) (answer' t c m'))
    {p : Act H α} (within : p.Within effects calls) {m m' : Machine H} (related : R m m')
    (t : ThreadId) : Matches R (p.run answer t m) (p.run answer' t m') := by
  induction p generalizing m m' with
  | done o => exact .some ⟨rfl, related⟩
  | effect on e next ih =>
    obtain ⟨same, after⟩ := sim.apply related (on.getD t) e within.1
    have rest := ih (m.apply (on.getD t) e).1 (within.2 _) after
    simp only [Act.run]
    rw [← same]
    exact rest
  | call on c next ih =>
    have answered := answers related (on.getD t) c within.1
    simp only [Act.run]
    generalize answer (on.getD t) c m = x at answered
    generalize answer' (on.getD t) c m' = y at answered
    cases answered with
    | none => exact .none
    | @some x y ends =>
      obtain ⟨r, after⟩ := x
      obtain ⟨r', after'⟩ := y
      obtain ⟨same, after⟩ := ends
      cases same
      exact ih r (within.2 r) after

theorem serve (sim : Simulation code effects calls R) {depth : Nat}
    (answers : ∀ {m m'}, R m m' → ∀ t c, calls c →
      Matches R (Machine.call code depth t c m) (Machine.call code depth t c m'))
    {body : Act H Bytes} (within : body.Within effects calls) {m m' : Machine H}
    (related : R m m') (t : ThreadId) :
    Matches R (Machine.serve code depth t (m, body)) (Machine.serve code depth t (m', body)) := by
  have ran := sim.run answers within related t
  simp only [Machine.serve]
  generalize body.run (Machine.call code depth) t m = x at ran
  generalize body.run (Machine.call code depth) t m' = y at ran
  cases ran with
  | none => exact .none
  | @some x y ends =>
    obtain ⟨o, after⟩ := x
    obtain ⟨o', after'⟩ := y
    obtain ⟨same, after⟩ := ends
    cases same
    exact .some ⟨Machine.land_fst _ _ t o, sim.land after t o⟩

theorem call (sim : Simulation code effects calls R) (depth : Nat) {m m' : Machine H}
    (related : R m m') (t : ThreadId) (c : Call H) (within : calls c) :
    Matches R (Machine.call code depth t c m) (Machine.call code depth t c m') := by
  induction depth generalizing m m' t c with
  | zero => exact .none
  | succ depth ih =>
    obtain ⟨same, entered⟩ := sim.enter related t c within
    have known := Machine.enter_within sim.known m t c
    have served := sim.serve (fun related t c within => ih related t c within) known entered t
    rw [Machine.call_succ_eq, Machine.call_succ_eq]
    have bodies : m'.enter code t c = ((m'.enter code t c).1, (m.enter code t c).2) := by
      rw [same]
    rw [bodies]
    exact served.map c.reply

end Simulation

end WalletBridge.Api
