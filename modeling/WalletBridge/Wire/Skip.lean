import WalletBridge.Wire.Key

namespace WalletBridge.Wire

def skipGroup (skip : Key → Bytes → Except DecodeError Bytes) (tag : Nat) :
    (fuel : Nat) → Bytes → Except DecodeError Bytes
  | 0, _ => Fault.invalidVarint.raise
  | fuel + 1, bs => do
    let (key, rest) ← Key.read bs
    if key.wireType = .endGroup then
      if key.tag = tag then return rest else Fault.unexpectedEndGroup.raise
    else
      skipGroup skip tag fuel (← skip key rest)

/-- What follows the value of a field. Each field of a group takes at least a byte, so the length
bounds their number. -/
def skipField : (budget : Nat) → Key → Bytes → Except DecodeError Bytes
  | 0, _, _ => Fault.recursionLimit.raise
  | budget + 1, key, bs =>
    match key.wireType with
    | .varint => return (← Varint.read bs).2
    | .thirtyTwoBit => return (← take 4 bs).2
    | .sixtyFourBit => return (← take 8 bs).2
    | .lengthDelimited => return (← readDelimited bs).2
    | .startGroup => skipGroup (skipField budget) key.tag (bs.length + 1) bs
    | .endGroup => Fault.unexpectedEndGroup.raise

end WalletBridge.Wire
