import WalletBridge.Text.Utf8
import WalletBridge.Wire.Error

namespace WalletBridge.Wire.Varint

def writeFrom : Nat → Nat → Bytes
  | 0, n => [UInt8.ofNat (n % 128)]
  | more + 1, n =>
    if n < 128 then [UInt8.ofNat n] else UInt8.ofNat (n % 128 + 128) :: writeFrom more (n / 128)

/-- The shortest form of a number below `2 ^ 64`, which takes at most ten digits. -/
def write (n : Nat) : Bytes :=
  writeFrom 9 n

/-- Reads at most `count` digits. The last one that may stand there is at most one. -/
def readFrom? : (count : Nat) → Bytes → Option (Nat × Bytes)
  | 0, _ => none
  | _ + 1, [] => none
  | more + 1, b :: rest =>
    if b < 0x80 then
      if more = 0 ∧ 1 < b then none else some (b.toNat, rest)
    else
      (readFrom? more rest).map fun (n, rest) => (b.toNat % 128 + 128 * n, rest)

def read (bs : Bytes) : Except DecodeError (Nat × Bytes) :=
  match readFrom? 10 bs with
  | some r => .ok r
  | none => Fault.invalidVarint.raise

end WalletBridge.Wire.Varint
