import WalletBridge.Chain
import WalletBridge.Failure
import WalletBridge.Message.Bitcoin

namespace WalletBridge

inductive SignPayload
  | btcForkTx (m : BtcForkTxInput)
  | tronTx (m : TronTxInput)
  | tronMessage (m : TronMessageInput)
  | sealed (a : Any)
  deriving DecidableEq, Repr

namespace SignPayload

def names (α : Type) [Message α] (a : Any) : Bool :=
  (Message.schemaOf α).name.matchesUrl a.typeUrl

/-- An envelope that names a known type has to hold a message of that type. -/
def ofAny (a : Any) : Except MessageError SignPayload :=
  if names BtcForkTxInput a then (Message.unpack a).map .btcForkTx
  else if names TronTxInput a then (Message.unpack a).map .tronTx
  else if names TronMessageInput a then (Message.unpack a).map .tronMessage
  else .ok (.sealed a)

def toAny : SignPayload → Any
  | .btcForkTx m => Message.pack m
  | .tronTx m => Message.pack m
  | .tronMessage m => Message.pack m
  | .sealed a => a

def typeUrl : SignPayload → String
  | .btcForkTx _ => BtcForkTxInput.messageName.typeUrl
  | .tronTx _ => TronTxInput.messageName.typeUrl
  | .tronMessage _ => TronMessageInput.messageName.typeUrl
  | .sealed a => a.typeUrl

def chains : SignPayload → List String
  | .btcForkTx _ => Chain.bitcoinForks
  | .tronTx _ | .tronMessage _ => Chain.trons
  | .sealed _ => []

def supportsChain (p : SignPayload) (chain : String) : Bool :=
  p.chains.contains chain

end SignPayload

namespace SignParam

def payload (p : SignParam) : Except Failure SignPayload :=
  match p.input with
  | none => .error (.api .paramMissing)
  | some a => (SignPayload.ofAny a).mapError .message

def setPayload (p : SignParam) (payload : SignPayload) : SignParam :=
  { p with input := some payload.toAny }

end SignParam

def TronMessageInput.messageBytes (m : TronMessageInput) : Except Hex.Error Bytes :=
  if m.isHex then Hex.decodeAuto m.value else .ok (Utf8.encode m.value)

end WalletBridge
