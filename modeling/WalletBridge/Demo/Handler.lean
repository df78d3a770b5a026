import WalletBridge.Api.Dispatch

namespace WalletBridge.Demo

open Api

inductive Handler
  | verifyPassword
  | idPresent
  | deriveAccounts
  | externalAddress
  | derivedKey
  | tronSignMsg
  | reenter
  | echoTyped (s : Schema)
  | echo
  | callThenEcho (text : String)
  | signTx
  | reply (text : String)
  | fail (text : String)
  | failWithCause (text : String)
  | failParamMissing
  | panic (text : String)
  | panicUnknown
  deriving DecidableEq, Repr

def password : String := "imToken1"

def failWith {α : Type} (text : String) : Act Handler α :=
  .fail (.other text [])

def checkPassword (given : String) : Act Handler Unit :=
  if given = password then pure () else failWith "password_incorrect"

def verifyPassword (p : WalletKeyParam) : Act Handler Response := do
  checkPassword p.password
  return { isSuccess := true }

def idPresent (p : WalletKeyParam) : Act Handler Response :=
  return { isSuccess := p.id != "" }

def account (d : Derivation) : AccountResponse :=
  { chainType := d.chainType, path := d.path, address := d.chainType ++ "@" ++ d.path }

def deriveAccounts (p : HdStoreDeriveParam) : Act Handler AccountsResponse := do
  checkPassword p.password
  return { accounts := p.derivations.map account }

def externalAddress (p : ExternalAddressParam) : Act Handler ExternalAddressResult :=
  if p.id = "" then .panic (.text "wallet_not_found")
  else
    let idx := toString p.externalIdx.toNat
    return {
      address := p.chainType ++ "-external-" ++ idx
      derivedPath := "0/" ++ idx
      type := "EXTERNAL" }

def derivedKey (p : VerifyDerivedKeyParam) : Act Handler DerivedKeyResult :=
  return { id := p.id, derivedKey := p.derivedKey }

def tronSignMsg (p : SignParam) : Act Handler TronMessageOutput := do
  match ← Act.payload p with
  | .tronMessage m =>
    let b ← Act.ofExcept .hex m.messageBytes
    return { signature := Hex.encodeMarked b }
  | _ => failWith "unsupported_chain"

def reenter (p : WalletKeyParam) : Act Handler DerivedKeyResult := do
  Act.perform (.register .shared .verifyDerivedKey .derivedKey)
  let request : Action := { method := "keystore_common_verify", param := some (Message.pack p) }
  let text ← Act.invoke (.api (Hex.encode (← Act.encode request)))
  let reply ← Act.ofExcept .hex (Hex.decode text)
  let response : Response ← Act.ofExcept .decode (Message.parse reply)
  return { id := p.id, derivedKey := if response.isSuccess then "derived" else "" }

def change (m : BtcForkTxInput) : Int64 :=
  (m.unspents.map Utxo.amount).sum - m.amount - m.fee

def signBtcFork (m : BtcForkTxInput) : BtcForkSignedTxOutput :=
  { signature := m.recipient ++ ":" ++ toString (change m).toInt
    txHash := toString m.unspents.length }

def signTron (m : TronTxInput) : TronTxOutput :=
  { signature := m.rawData.reverse }

def signTx (input : Bytes) : Act Handler Bytes := do
  let p : SignParam ← Act.ofExcept .decode (Message.parse input)
  let payload ← Act.payload p
  if !payload.supportsChain p.chainType then failWith "unsupported_chain"
  else
    match payload with
    | .btcForkTx m => Act.encode (signBtcFork m)
    | .tronTx m => Act.encode (signTron m)
    | _ => failWith "unsupported_chain"

def callThenEcho (text : String) (input : Bytes) : Act Handler Bytes := do
  let _ ← Act.invoke (.api text)
  return input

def code : Code Handler
  | .verifyPassword => messageHandler verifyPassword
  | .idPresent => messageHandler idPresent
  | .deriveAccounts => messageHandler deriveAccounts
  | .externalAddress => messageHandler externalAddress
  | .derivedKey => messageHandler derivedKey
  | .tronSignMsg => messageHandler tronSignMsg
  | .reenter => messageHandler reenter
  | .echoTyped s => typedHandler s s pure
  | .echo => pure
  | .callThenEcho text => callThenEcho text
  | .signTx => signTx
  | .reply text => fun _ => pure (Utf8.encode text)
  | .fail text => fun _ => failWith text
  | .failWithCause text => fun _ => .fail (.other text ["root_cause"])
  | .failParamMissing => fun _ => .fail (.api .paramMissing)
  | .panic text => fun _ => .panic (.text text)
  | .panicUnknown => fun _ => .panic .unknown

def handlers : List (Method × Handler) :=
  [(.hdStoreDerive, .deriveAccounts), (.keystoreCommonVerify, .verifyPassword),
   (.calcExternalAddress, .externalAddress), (.signTx, .signTx), (.tronSignMsg, .tronSignMsg),
   (.getDerivedKey, .reenter), (.verifyDerivedKey, .derivedKey)]

def start : Machine Handler :=
  handlers.foldl (fun m (method, h) => m.register 0 .shared method h) .initial

end WalletBridge.Demo
