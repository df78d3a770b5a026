import WalletBridge.Proofs.Demo
import WalletBridge.Proofs.Schema.WireRoundTrip
import WalletBridge.Proofs.Text.Hex

namespace WalletBridge.Api

variable {H : Type}

def Code.Avoids (name : String) (code : Code H) : Prop :=
  code.Within (Effect.StaysOn (· ≠ .named name)) (Call.StaysOn (· ≠ .named name))

theorem shared_ne_named (name : String) : Target.shared ≠ .named name := nofun

def hexReply : Except Failure Bytes → String
  | .ok reply => Hex.encode reply
  | .error _ => ""

namespace Machine

theorem call_hex {code : Code H} {d : Target} {text : String} {b : Bytes}
    (decoded : Hex.decodeAuto text = .ok b) (depth : Nat) (t : ThreadId) (m : Machine H) :
    call code depth t (.hex d text) m =
      (call code depth t (.bytes d b) m).map fun (r, after) => (hexReply r, after) := by
  have replies (r : Except Failure Bytes) : (Call.hex d text : Call H).reply r = hexReply r := by
    cases r <;> rfl
  cases depth with
  | zero => rfl
  | succ depth =>
    rw [call_succ_eq, call_succ_eq, enter_hex decoded, Option.map_map]
    simp only [replies]
    rfl

theorem call_bytes {code : Code H} {d : Target} {b : Bytes} {a : Action}
    (parsed : Message.parse b = .ok a) (depth : Nat) (t : ThreadId) (m : Machine H) :
    call code depth t (.bytes d b) m = call code depth t (.action d a) m := by
  cases depth with
  | zero => rfl
  | succ depth =>
    rw [call_succ_eq, call_succ_eq, enter_bytes parsed]
    rfl

theorem enter_hex_of_tables {code : Code H} {m : Machine H} {d d' : Target}
    (same : m.tables d = m.tables d') (t : ThreadId) (text : String) :
    m.enter code t (.hex d text) = m.enter code t (.hex d' text) := by
  simp only [enter, same]

theorem call_hex_of_tables {code : Code H} {m : Machine H} {d d' : Target}
    (same : m.tables d = m.tables d') (depth : Nat) (t : ThreadId) (text : String) :
    call code depth t (.hex d text) m = call code depth t (.hex d' text) m := by
  have replies (r : Except Failure Bytes) :
      (Call.hex d text : Call H).reply r = (Call.hex d' text : Call H).reply r := by
    cases r <;> rfl
  cases depth with
  | zero => rfl
  | succ depth =>
    rw [call_succ_eq, call_succ_eq, enter_hex_of_tables same]
    simp only [replies]
    rfl

theorem agreeOn_copy (m : Machine H) (t : ThreadId) (d : Target) (name : String) :
    AgreeOn (· ≠ .named name) m.journal (⟨t, .copied d name⟩ :: m.journal) m
      (m.apply t (.copy d name)).2 := by
  refine ⟨?_, rfl, rfl, rfl, [], rfl, rfl⟩
  intro other seen
  exact (if_neg seen).symm

theorem tables_copy (m : Machine H) (t : ThreadId) (name : String) :
    (m.apply t (.copy .shared name)).2.tables (.named name) =
      (m.apply t (.copy .shared name)).2.tables .shared := by
  rw [← (agreeOn_copy m t .shared name).tables .shared (shared_ne_named name)]
  exact if_pos rfl

theorem enter_copy (code : Code H) (name : String) (t : ThreadId) (text : String) (m : Machine H) :
    ((m.apply t (.copy .shared name)).2.enter code t (.hex (.named name) text)).2 =
      (m.enter code t (.api text)).2 := by
  rw [enter_hex_of_tables (tables_copy m t name)]
  exact ((agreeOn_copy m t .shared name).enter code t (.api text) (shared_ne_named name)).1.symm

theorem call_copy {code : Code H} {name : String} (avoids : code.Avoids name) (depth : Nat)
    (t : ThreadId) (text : String) (m : Machine H) :
    Matches (AgreeOn (· ≠ .named name) m.journal (⟨t, .copied .shared name⟩ :: m.journal))
      (call code depth t (.api text) m)
      (call code depth t (.hex (.named name) text) (m.apply t (.copy .shared name)).2) := by
  have calls := (Simulation.agreeOn avoids).call depth (agreeOn_copy m t .shared name) t (.api text)
    (shared_ne_named name)
  rw [call_hex_of_tables (tables_copy m t name)]
  exact calls

/-- Hex text, with the marker or without, is answered like the bytes that it stands for, in hex and
with no text on failure; bytes are answered like the request that they encode. Machine and journal end
up the same. So they do for the app's call and a call on any dispatcher with the same handlers at this
moment, such as a copy of the app's own. That the copy was made makes no difference either, if no
handler knows it. No buffer is longer than a word of 64 bits counts. -/
theorem entry_points_agree (code : Code H) (depth : Nat) (t : ThreadId) (m : Machine H) :
    (∀ d b text, text = Hex.encode b ∨ text = Hex.encodeMarked b →
      call code depth t (.hex d text) m =
        (call code depth t (.bytes d b) m).map fun (r, after) => (hexReply r, after)) ∧
    (∀ d a, (Message.encode a).length < 1 <<< 64 →
      call code depth t (.bytes d (Message.encode a)) m = call code depth t (.action d a) m) ∧
    (∀ text d, m.tables d = m.tables .shared →
      call code depth t (.hex d text) m = call code depth t (.api text) m) ∧
    ∀ text name,
      (m.apply t (.copy .shared name)).2.tables (.named name) = m.tables .shared ∧
      (m.apply t (.copy .shared name)).2.tables .shared = m.tables .shared ∧
      ((m.apply t (.copy .shared name)).2.enter code t (.hex (.named name) text)).2 =
        (m.enter code t (.api text)).2 ∧
      (code.Avoids name →
        Matches (AgreeOn (· ≠ .named name) m.journal (⟨t, .copied .shared name⟩ :: m.journal))
          (call code depth t (.api text) m)
          (call code depth t (.hex (.named name) text) (m.apply t (.copy .shared name)).2)) := by
  refine ⟨?_, ?_, fun text d same => call_hex_of_tables same depth t text, ?_⟩
  · intro d b text written
    have decoded : Hex.decodeAuto text = .ok b := by
      rcases written with rfl | rfl
      · exact Hex.decodeAuto_encode b
      · exact Hex.decodeAuto_encodeMarked b
    exact call_hex decoded depth t m
  · intro d a bound
    have known : Message.schemaOf Action ∈ Catalog.all := by decide +kernel
    exact call_bytes (Message.parse_encode known a bound) depth t m
  · intro text name
    have shared := ((agreeOn_copy m t .shared name).tables .shared (shared_ne_named name)).symm
    exact ⟨(tables_copy m t name).trans shared, shared, enter_copy code name t text m,
      fun avoids => call_copy avoids depth t text m⟩

def derivedKeyRequest : Action where
  method := "GET_DERIVED_KEY"
  param := some (Message.pack ({ id := "w1", password := "imToken1" } : WalletKeyParam))

theorem entry_points_agree_derivedKeyRequest :
    let b := Message.encode derivedKeyRequest
    let asked := call Demo.code 2 0 (.action .shared derivedKeyRequest) Demo.start
    b.length < 1 <<< 64 ∧ Demo.code.Avoids "copy" ∧ asked.isSome ∧
    call Demo.code 2 0 (.hex .shared (Hex.encodeMarked b)) Demo.start =
      asked.map (fun (r, after) => (hexReply r, after)) ∧
    call Demo.code 2 0 (.hex (.named "copy") (Hex.encode b))
        (Demo.start.apply 0 (.copy .shared "copy")).2 =
      call Demo.code 2 0 (.api (Hex.encode b)) (Demo.start.apply 0 (.copy .shared "copy")).2 ∧
    Matches (AgreeOn (· ≠ .named "copy") Demo.start.journal
        (⟨0, .copied .shared "copy"⟩ :: Demo.start.journal))
      (call Demo.code 2 0 (.api (Hex.encode b)) Demo.start)
      (call Demo.code 2 0 (.hex (.named "copy") (Hex.encode b))
        (Demo.start.apply 0 (.copy .shared "copy")).2) := by
  intro b asked
  have bound : b.length < 1 <<< 64 := by decide +kernel
  have avoids : Demo.code.Avoids "copy" := Demo.code_within (shared_ne_named "copy")
  have ends : asked.isSome := by decide +kernel
  obtain ⟨hex, bytes, _, copies⟩ := entry_points_agree Demo.code 2 0 Demo.start
  obtain ⟨_, _, like, _⟩ :=
    entry_points_agree Demo.code 2 0 (Demo.start.apply 0 (.copy .shared "copy")).2
  have marked := hex .shared b (Hex.encodeMarked b) (.inr rfl)
  rw [bytes .shared derivedKeyRequest bound] at marked
  obtain ⟨copied, kept, _, fresh⟩ := copies (Hex.encode b) "copy"
  exact ⟨bound, avoids, ends, marked, like _ _ (copied.trans kept.symm), fresh avoids⟩

end Machine

end WalletBridge.Api
