import WalletBridge.Schema.Codec

namespace WalletBridge

structure Parcel where
  schema : Schema
  record : schema.Record

namespace Parcel

def encode (p : Parcel) : Bytes :=
  p.schema.encodeDelimited p.record

def stream (ps : List Parcel) : Bytes :=
  ps.flatMap encode

end Parcel

namespace Schema

def decodeStream : List Schema → Bytes → Except MessageError (List (Parcel × Bytes))
  | [], _ => .ok []
  | s :: later, bs => do
    let (r, rest) ← s.decodeDelimited bs
    let read ← decodeStream later rest
    return (⟨s, r⟩, rest) :: read

end Schema

end WalletBridge
