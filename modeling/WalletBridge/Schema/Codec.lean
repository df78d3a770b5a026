import WalletBridge.Object.Read
import WalletBridge.Schema.Decode

namespace WalletBridge

inductive MessageError
  | decode (e : Wire.DecodeError)
  | lengthOutOfRange (requested available : Nat)
  | typeUrlMismatch (expected actual : String)
  | object (e : ObjectError)
  deriving DecidableEq, Repr

def MessageError.message : MessageError → String
  | .decode e => "decode_failed# " ++ e.message
  | .lengthOutOfRange requested available =>
    "length_out_of_range# requested: " ++ toString requested ++ ", available: " ++
      toString available
  | .typeUrlMismatch expected actual =>
    "type_url_mismatch# expected: " ++ expected ++ ", actual: " ++ actual
  | .object e => "invalid_object# " ++ e.message

namespace Schema

def decode (s : Schema) (bs : Bytes) (length : Option Nat) : Except MessageError s.Record :=
  match length with
  | none => (s.parse bs).mapError .decode
  | some n =>
    if bs.length < n then .error (.lengthOutOfRange n bs.length)
    else (s.parse (bs.take n)).mapError .decode

def decodeDelimited (s : Schema) (bs : Bytes) : Except MessageError (s.Record × Bytes) :=
  (s.parseDelimited bs).mapError .decode

def readObject (s : Schema) (v : Json) : Except MessageError s.Record :=
  (s.ofObject v).mapError .object

end Schema

end WalletBridge
