import WalletBridge.Demo.Handler
import WalletBridge.Proofs.Api.Agreement

namespace WalletBridge.Demo

open Api

variable {effects : Effect Handler → Prop} {calls : Call Handler → Prop} {sight : Target → Prop}

theorem checkPassword_within (given : String) : (checkPassword given).Within effects calls := by
  unfold checkPassword
  split <;> trivial

theorem verifyPassword_within (p : WalletKeyParam) : (verifyPassword p).Within effects calls :=
  Act.within_bind (checkPassword_within _) fun _ => Act.within_pure _

theorem deriveAccounts_within (p : HdStoreDeriveParam) : (deriveAccounts p).Within effects calls :=
  Act.within_bind (checkPassword_within _) fun _ => Act.within_pure _

theorem externalAddress_within (p : ExternalAddressParam) :
    (externalAddress p).Within effects calls := by
  unfold externalAddress
  split <;> trivial

theorem tronSignMsg_within (resolves : ∀ a, effects (.resolve a)) (p : SignParam) :
    (tronSignMsg p).Within effects calls := by
  refine Act.within_bind (Act.payload_within resolves p) fun payload => ?_
  split
  · exact Act.within_bind (Act.within_ofExcept ..) fun _ => Act.within_pure _
  · trivial

theorem reenter_within (shared : sight .shared) (p : WalletKeyParam) :
    (reenter p).Within (Effect.StaysOn sight) (Call.StaysOn sight) := by
  refine Act.within_bind (Act.within_perform shared) fun _ => ?_
  refine Act.within_bind (Act.within_perform trivial) fun request => ?_
  refine Act.within_bind (Act.within_invoke shared) fun text => ?_
  refine Act.within_bind (Act.within_ofExcept ..) fun reply => ?_
  exact Act.within_bind (Act.within_ofExcept ..) fun response => Act.within_pure _

theorem signTx_within (encodes : ∀ s r, effects (.encode s r))
    (resolves : ∀ a, effects (.resolve a)) (input : Bytes) : (signTx input).Within effects calls := by
  refine Act.within_bind (Act.within_ofExcept ..) fun p => ?_
  refine Act.within_bind (Act.payload_within resolves p) fun payload => ?_
  split
  · trivial
  · split
    · exact Act.within_perform (encodes _ _)
    · exact Act.within_perform (encodes _ _)
    · trivial

theorem code_within (shared : sight .shared) :
    code.Within (Effect.StaysOn sight) (Call.StaysOn sight) := by
  have encodes (s : Schema) (r : s.Record) : Effect.StaysOn (H := Handler) sight (.encode s r) := trivial
  have resolves (a : Any) : Effect.StaysOn (H := Handler) sight (.resolve a) := trivial
  intro h input
  cases h with
  | verifyPassword => exact messageHandler_within encodes verifyPassword_within input
  | idPresent => exact messageHandler_within encodes (fun _ => Act.within_pure _) input
  | deriveAccounts => exact messageHandler_within encodes deriveAccounts_within input
  | externalAddress => exact messageHandler_within encodes externalAddress_within input
  | derivedKey => exact messageHandler_within encodes (fun _ => Act.within_pure _) input
  | tronSignMsg => exact messageHandler_within encodes (tronSignMsg_within resolves) input
  | reenter => exact messageHandler_within encodes (reenter_within shared) input
  | echoTyped s => exact typedHandler_within encodes (fun _ => Act.within_pure _) input
  | callThenEcho text => exact Act.within_bind (Act.within_invoke shared) fun _ => Act.within_pure _
  | signTx => exact signTx_within encodes resolves input
  | _ => trivial

end WalletBridge.Demo
