import WalletBridge.Schema.Basic

namespace WalletBridge

namespace Dump

/-- Escapes beyond ASCII are left out: characters that cannot be printed, such as U+0085, U+00AD and
U+2028, and combining marks are shown as they are. -/
def escape (c : Char) : List Char :=
  if c = '"' then ['\\', '"']
  else if c = '\\' then ['\\', '\\']
  else if c = '\n' then ['\\', 'n']
  else if c = '\r' then ['\\', 'r']
  else if c = '\t' then ['\\', 't']
  else if c = '\x00' then ['\\', '0']
  else if c.toNat < 0x20 ∨ c.toNat = 0x7f then
    ['\\', 'u', '\x7b'] ++ Nat.toDigits 16 c.toNat ++ ['\x7d']
  else [c]

def quoted (s : String) : String :=
  "\"" ++ String.ofList (s.toList.flatMap escape) ++ "\""

def closeLast : List String → List String
  | [] => []
  | [l] => [l ++ ","]
  | l :: rest => l :: closeLast rest

def part (heading : String) (lines : List String) : List String :=
  let headed := match lines with
    | [] => [heading]
    | l :: rest => (heading ++ l) :: rest
  (closeLast headed).map ("    " ++ ·)

def list (items : List (List String)) : List String :=
  if items.isEmpty then ["[]"] else ["["] ++ items.flatMap (part "") ++ ["]"]

def optional : Option (List String) → List String
  | none => ["None"]
  | some lines => ["Some("] ++ part "" lines ++ [")"]

def struct (name : String) (fields : List String) : List String :=
  [name ++ " \x7b"] ++ fields ++ ["\x7d"]

def scalar : (s : Scalar) → s.Value → List String
  | .string, v => [quoted v]
  | .bool, v => [cond v "true" "false"]
  | .int32, v => [toString (Int32.toInt v)]
  | .uint32, v => [toString (UInt32.toNat v)]
  | .int64, v => [toString (Int64.toInt v)]
  | .bytes, v => list (List.map (fun b : UInt8 => [toString b.toNat]) v)
  | .keyType, v =>
    match KeyType.ofNumber? v with
    | some k => [k.label]
    | none => [toString (Int32.toInt v)]

def fields : (fs : Fields) → fs.Record → List String
  | .nil, _ => []
  | .scalar info kind rest, (v, r) => part (info.label ++ ": ") (scalar kind v) ++ fields rest r
  | .message info name body rest, (m, r) =>
    part (info.label ++ ": ") (optional (m.map fun m => struct name.ownName (fields body m))) ++
      fields rest r
  | .repeated info name body rest, (ms, r) =>
    part (info.label ++ ": ") (list (ms.map fun m => struct name.ownName (fields body m))) ++
      fields rest r

end Dump

def Schema.dump (s : Schema) (r : s.Record) : String :=
  "\n".intercalate (Dump.struct s.name.ownName (Dump.fields s.fields r))

end WalletBridge
