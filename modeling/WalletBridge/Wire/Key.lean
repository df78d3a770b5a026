import WalletBridge.Wire.Varint

namespace WalletBridge.Wire

structure Key where
  tag : Nat
  wireType : WireType
  deriving DecidableEq, Repr

namespace Key

def write (k : Key) : Bytes :=
  Varint.write (k.tag * 8 + k.wireType.code)

def ofNat (n : Nat) : Except DecodeError Key :=
  if 0x100000000 ≤ n then (Fault.invalidKey n).raise
  else
    match WireType.ofCode? (n % 8) with
    | none => (Fault.unknownWireType (n % 8)).raise
    | some w => if n / 8 = 0 then Fault.zeroTag.raise else .ok ⟨n / 8, w⟩

def read (bs : Bytes) : Except DecodeError (Key × Bytes) := do
  let (n, rest) ← Varint.read bs
  return (← ofNat n, rest)

end Key

def checkWireType (actual expected : WireType) : Except DecodeError Unit :=
  if actual = expected then .ok () else (Fault.wrongWireType actual expected).raise

def take (n : Nat) (bs : Bytes) : Except DecodeError (Bytes × Bytes) :=
  if bs.length < n then Fault.bufferUnderflow.raise else .ok (bs.take n, bs.drop n)

def readDelimited (bs : Bytes) : Except DecodeError (Bytes × Bytes) := do
  let (n, rest) ← Varint.read bs
  take n rest

def writeDelimited (body : Bytes) : Bytes :=
  Varint.write body.length ++ body

end WalletBridge.Wire
