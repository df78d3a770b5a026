import WalletBridge.Text.Utf8

namespace WalletBridge.Base64

def symbol (n : Nat) : Char :=
  if n < 26 then Char.ofNat ('A'.toNat + n)
  else if n < 52 then Char.ofNat ('a'.toNat + (n - 26))
  else if n < 62 then Char.ofNat ('0'.toNat + (n - 52))
  else if n = 62 then '+'
  else '/'

def value? (c : Char) : Option Nat :=
  if 'A' ≤ c ∧ c ≤ 'Z' then some (c.toNat - 'A'.toNat)
  else if 'a' ≤ c ∧ c ≤ 'z' then some (c.toNat - 'a'.toNat + 26)
  else if '0' ≤ c ∧ c ≤ '9' then some (c.toNat - '0'.toNat + 52)
  else if c = '+' then some 62
  else if c = '/' then some 63
  else none

def symbols : Bytes → List Char
  | [] => []
  | [a] =>
    let n := a.toNat * 16
    [symbol (n / 64), symbol (n % 64), '=', '=']
  | [a, b] =>
    let n := (a.toNat * 256 + b.toNat) * 4
    [symbol (n / 4096), symbol (n / 64 % 64), symbol (n % 64), '=']
  | a :: b :: c :: rest =>
    let n := (a.toNat * 256 + b.toNat) * 256 + c.toNat
    symbol (n / 262144) :: symbol (n / 4096 % 64) :: symbol (n / 64 % 64) :: symbol (n % 64) ::
      symbols rest

def encode (b : Bytes) : String :=
  String.ofList (symbols b)

def lastOne? (a b : Char) : Option Bytes :=
  match value? a, value? b with
  | some x, some y => if y % 16 = 0 then some [UInt8.ofNat ((x * 64 + y) / 16)] else none
  | _, _ => none

def lastTwo? (a b c : Char) : Option Bytes :=
  match value? a, value? b, value? c with
  | some x, some y, some z =>
    let n := (x * 64 + y) * 64 + z
    if z % 4 = 0 then some [UInt8.ofNat (n / 1024), UInt8.ofNat (n / 4 % 256)] else none
  | _, _, _ => none

def bytes? : List Char → Option Bytes
  | [] => some []
  | [a, b] | [a, b, '='] | [a, b, '=', '='] => lastOne? a b
  | [a, b, c] | [a, b, c, '='] => lastTwo? a b c
  | a :: b :: c :: d :: rest =>
    match value? a, value? b, value? c, value? d with
    | some x, some y, some z, some w =>
      let n := ((x * 64 + y) * 64 + z) * 64 + w
      (bytes? rest).map fun tail =>
        UInt8.ofNat (n / 65536) :: UInt8.ofNat (n / 256 % 256) :: UInt8.ofNat (n % 256) :: tail
    | _, _, _, _ => none
  | _ => none

/-- The last quad may come without its padding. Bits beyond the last byte have to be zero. -/
def decode? (s : String) : Option Bytes :=
  bytes? s.toList

end WalletBridge.Base64
