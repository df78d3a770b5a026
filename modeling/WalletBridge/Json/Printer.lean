import WalletBridge.Json.Basic
import WalletBridge.Number.Shortest

namespace WalletBridge.Json

def escape (c : Char) : List Char :=
  if c = '"' then ['\\', '"']
  else if c = '\\' then ['\\', '\\']
  else if c = '\x08' then ['\\', 'b']
  else if c = '\x0c' then ['\\', 'f']
  else if c = '\n' then ['\\', 'n']
  else if c = '\r' then ['\\', 'r']
  else if c = '\t' then ['\\', 't']
  else if c.toNat < 0x20 then
    ['\\', 'u', '0', '0', Nat.digitChar (c.toNat / 16), Nat.digitChar (c.toNat % 16)]
  else [c]

def quoted (s : String) : String :=
  "\"" ++ String.ofList (s.toList.flatMap escape) ++ "\""

def Number.toText : Number → String
  | .int n => toString n
  | .float x => x.toText

def joinWith (separator : String) : List String → String
  | [] => ""
  | [s] => s
  | s :: rest => s ++ separator ++ joinWith separator rest

def insertMember {α : Type} (m : String × α) : List (String × α) → List (String × α)
  | [] => [m]
  | n :: rest => if m.1 ≤ n.1 then m :: n :: rest else n :: insertMember m rest

def sortMembers {α : Type} (ms : List (String × α)) : List (String × α) :=
  ms.foldr insertMember []

mutual
def compact : Json → String
  | .null => "null"
  | .bool b => if b then "true" else "false"
  | .num n => n.toText
  | .str s => quoted s
  | .arr items => "[" ++ joinWith "," (compactItems items) ++ "]"
  | .obj ms =>
    let pairs := (sortMembers (compactMembers ms)).map fun (k, v) => quoted k ++ ":" ++ v
    "\x7b" ++ joinWith "," pairs ++ "\x7d"
termination_by structural v => v

def compactItems : List Json → List String
  | [] => []
  | v :: rest => compact v :: compactItems rest
termination_by structural items => items

def compactMembers : List (String × Json) → List (String × String)
  | [] => []
  | (k, v) :: rest => (k, compact v) :: compactMembers rest
termination_by structural ms => ms
end

end WalletBridge.Json
