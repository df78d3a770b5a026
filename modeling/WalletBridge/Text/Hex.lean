import WalletBridge.Text.Utf8

namespace WalletBridge.Hex

inductive Error
  | malformed
  /-- The text is a single zero, half of a marker and half of a byte. -/
  | loneZero
  deriving DecidableEq, Repr

def Error.message : Error → String
  | .malformed => "invalid_hex"
  | .loneZero => "invalid_hex_prefix"

def digit (n : Nat) : Char :=
  if n < 10 then Char.ofNat ('0'.toNat + n) else Char.ofNat ('a'.toNat + (n - 10))

def pair (b : UInt8) : List Char :=
  [digit (b.toNat / 16), digit (b.toNat % 16)]

def encode (b : Bytes) : String :=
  String.ofList (b.flatMap pair)

def encodeMarked (b : Bytes) : String :=
  "0x" ++ encode b

def value? (c : Char) : Option Nat :=
  if '0' ≤ c ∧ c ≤ '9' then some (c.toNat - '0'.toNat)
  else if 'a' ≤ c ∧ c ≤ 'f' then some (c.toNat - 'a'.toNat + 10)
  else if 'A' ≤ c ∧ c ≤ 'F' then some (c.toNat - 'A'.toNat + 10)
  else none

def bytes? : List Char → Option Bytes
  | [] => some []
  | [_] => none
  | high :: low :: rest =>
    match value? high, value? low with
    | some h, some l => (bytes? rest).map (UInt8.ofNat (16 * h + l) :: ·)
    | _, _ => none

def decodeChars (cs : List Char) : Except Error Bytes :=
  match bytes? cs with
  | some b => .ok b
  | none => .error .malformed

def decode (s : String) : Except Error Bytes :=
  decodeChars s.toList

/-- Reads digits behind at most one marker, which may be missing. -/
def decodeAuto (s : String) : Except Error Bytes :=
  match s.toList with
  | '0' :: 'x' :: rest => decodeChars rest
  | '0' :: 'X' :: rest => decodeChars rest
  | ['0'] => .error .loneZero
  | cs => decodeChars cs

end WalletBridge.Hex
