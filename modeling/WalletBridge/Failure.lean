import WalletBridge.Method
import WalletBridge.Text.Hex

namespace WalletBridge

inductive ApiError
  | unsupportedMethod
  | paramMissing
  | handlerNotRegistered (method : Method)
  deriving DecidableEq, Repr

def ApiError.message : ApiError → String
  | .unsupportedMethod => "unsupported_method"
  | .paramMissing => "param_missing"
  | .handlerNotRegistered method => "handler_not_registered# method: " ++ method.name

inductive Failure
  | message (e : MessageError)
  | api (e : ApiError)
  | hex (e : Hex.Error)
  | decode (e : Wire.DecodeError)
  /-- A text of the handler's own, and the texts of what caused it. -/
  | other (text : String) (causes : List String)
  deriving DecidableEq, Repr

namespace Failure

def text : Failure → String
  | .message e => e.message
  | .api e => e.message
  | .hex e => e.message
  | .decode e => e.message
  | .other text _ => text

def causes : Failure → List String
  | .message (.decode e) => [e.message]
  | .other _ causes => causes
  | _ => []

def report (f : Failure) : String :=
  ": ".intercalate (f.text :: f.causes)

end Failure

end WalletBridge
