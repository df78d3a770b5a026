namespace WalletBridge

/-- A message's package and its name there. A nested message carries its parent's name and a dot. -/
structure MessageName where
  package : String
  name : String
  deriving DecidableEq, Repr

namespace MessageName

def urlHead : String := "type.googleapis.com/"

def full (n : MessageName) : String :=
  n.package ++ "." ++ n.name

def typeUrl (n : MessageName) : String :=
  urlHead ++ n.full

def afterLast (c : Char) (s : String) : String :=
  String.ofList (s.toList.reverse.takeWhile (· != c)).reverse

/-- Only what follows the last slash counts, so a bare full name matches too. -/
def matchesUrl (n : MessageName) (url : String) : Bool :=
  afterLast '/' url == n.full

def ownName (n : MessageName) : String :=
  afterLast '.' n.name

end MessageName

end WalletBridge
