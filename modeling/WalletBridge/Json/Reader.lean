import WalletBridge.Json.Basic
import WalletBridge.Text.Hex

namespace WalletBridge.Json

def isSpace (c : Char) : Bool :=
  c == ' ' || c == '\t' || c == '\n' || c == '\r'

def skipSpaces (cs : List Char) : List Char :=
  cs.dropWhile isSpace

def isNumberChar (c : Char) : Bool :=
  c.isDigit || c == '-' || c == '+' || c == '.' || c == 'e' || c == 'E'

/-- Without point or exponent a literal that fits 64 bits, signed or unsigned, is an integer; any other
one is the nearest double. -/
def number? (literal : List Char) : Option Number :=
  let exact := if literal.all fun c => c.isDigit || c == '-' then Numeral.integer? literal else none
  match exact with
  | some n =>
    if -0x8000000000000000 ≤ n ∧ n < 0x10000000000000000 then some (.int n)
    else ((Numeral.decimal? literal).bind Binary64.ofDecimal?).map .float
  | none => ((Numeral.decimal? literal).bind Binary64.ofDecimal?).map .float

def unit? (a b c d : Char) : Option Nat := do
  let high := (← Hex.value? a) * 16 + (← Hex.value? b)
  let low := (← Hex.value? c) * 16 + (← Hex.value? d)
  return high * 256 + low

def isHighSurrogate (u : Nat) : Bool := 0xD800 ≤ u && u < 0xDC00
def isLowSurrogate (u : Nat) : Bool := 0xDC00 ≤ u && u < 0xE000

def stringBody (acc : List Char) : List Char → Option (String × List Char)
  | [] => none
  | '"' :: rest => some (String.ofList acc.reverse, rest)
  | '\\' :: 'u' :: a :: b :: c :: d :: '\\' :: 'u' :: a' :: b' :: c' :: d' :: rest =>
    match unit? a b c d, unit? a' b' c' d' with
    | some u, some v =>
      if isHighSurrogate u && isLowSurrogate v then
        stringBody (Char.ofNat (0x10000 + (u - 0xD800) * 1024 + (v - 0xDC00)) :: acc) rest
      else if isHighSurrogate u || isLowSurrogate u then none
      else stringBody (Char.ofNat u :: acc) ('\\' :: 'u' :: a' :: b' :: c' :: d' :: rest)
    | _, _ => none
  | '\\' :: 'u' :: a :: b :: c :: d :: rest =>
    match unit? a b c d with
    | some u =>
      if isHighSurrogate u || isLowSurrogate u then none
      else stringBody (Char.ofNat u :: acc) rest
    | none => none
  | '\\' :: c :: rest =>
    match c with
    | '"' | '\\' | '/' => stringBody (c :: acc) rest
    | 'b' => stringBody ('\x08' :: acc) rest
    | 'f' => stringBody ('\x0c' :: acc) rest
    | 'n' => stringBody ('\n' :: acc) rest
    | 'r' => stringBody ('\r' :: acc) rest
    | 't' => stringBody ('\t' :: acc) rest
    | _ => none
  | c :: rest => if c.toNat < 0x20 then none else stringBody (c :: acc) rest

mutual
/-- The value at the front of a text, and what follows it. -/
def readValue : Nat → List Char → Option (Json × List Char)
  | 0, _ => none
  | fuel + 1, cs =>
    match skipSpaces cs with
    | 'n' :: 'u' :: 'l' :: 'l' :: rest => some (.null, rest)
    | 't' :: 'r' :: 'u' :: 'e' :: rest => some (.bool true, rest)
    | 'f' :: 'a' :: 'l' :: 's' :: 'e' :: rest => some (.bool false, rest)
    | '"' :: rest => (stringBody [] rest).map fun (s, rest) => (.str s, rest)
    | '[' :: rest =>
      match skipSpaces rest with
      | ']' :: rest => some (.arr [], rest)
      | rest => readItems fuel [] rest
    | '\x7b' :: rest =>
      match skipSpaces rest with
      | '\x7d' :: rest => some (.obj [], rest)
      | rest => readMembers fuel [] rest
    | rest =>
      (number? (rest.takeWhile isNumberChar)).map fun n => (.num n, rest.dropWhile isNumberChar)

def readItems : Nat → List Json → List Char → Option (Json × List Char)
  | 0, _, _ => none
  | fuel + 1, items, cs =>
    match readValue fuel cs with
    | none => none
    | some (v, rest) =>
      match skipSpaces rest with
      | ',' :: rest => readItems fuel (v :: items) rest
      | ']' :: rest => some (.arr (v :: items).reverse, rest)
      | _ => none

def readMembers : Nat → Members → List Char → Option (Json × List Char)
  | 0, _, _ => none
  | fuel + 1, members, cs =>
    match skipSpaces cs with
    | '"' :: rest =>
      match stringBody [] rest with
      | none => none
      | some (key, rest) =>
        match skipSpaces rest with
        | ':' :: rest =>
          match readValue fuel rest with
          | none => none
          | some (v, rest) =>
            match skipSpaces rest with
            | ',' :: rest => readMembers fuel (members.insert key v) rest
            | '\x7d' :: rest => some (.obj (members.insert key v), rest)
            | _ => none
        | _ => none
    | _ => none
end

/-- The value a whole text stands for. Each step takes a character, so the length bounds them. -/
def parse? (text : String) : Option Json :=
  let cs := text.toList
  match readValue (cs.length + 1) cs with
  | some (v, rest) => if (skipSpaces rest).isEmpty then some v else none
  | none => none

end WalletBridge.Json
