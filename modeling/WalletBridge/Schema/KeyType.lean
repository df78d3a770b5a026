namespace WalletBridge

inductive KeyType
  | mnemonic
  | privateKey
  deriving DecidableEq, Repr

namespace KeyType

def number : KeyType → Int32
  | .mnemonic => 0
  | .privateKey => 1

def name : KeyType → String
  | .mnemonic => "MNEMONIC"
  | .privateKey => "PRIVATE_KEY"

def label : KeyType → String
  | .mnemonic => "Mnemonic"
  | .privateKey => "PrivateKey"

def ofNumber? (n : Int32) : Option KeyType :=
  if n = 0 then some .mnemonic else if n = 1 then some .privateKey else none

def ofName? (s : String) : Option KeyType :=
  if s = "MNEMONIC" then some .mnemonic else if s = "PRIVATE_KEY" then some .privateKey else none

theorem ofNumber?_number (k : KeyType) : ofNumber? k.number = some k := by
  cases k <;> rfl

theorem number_of_ofNumber? {n : Int32} {k : KeyType} (known : ofNumber? n = some k) : k.number = n := by
  unfold ofNumber? at known
  split at known
  · rename_i zero
    cases known
    exact zero.symm
  · split at known
    · rename_i one
      cases known
      exact one.symm
    · cases known

theorem ofName?_name (k : KeyType) : ofName? k.name = some k := by
  cases k <;> decide

theorem name_of_ofName? {s : String} {k : KeyType} (known : ofName? s = some k) : k.name = s := by
  unfold ofName? at known
  split at known
  · rename_i mnemonic
    cases known
    exact mnemonic.symm
  · split at known
    · rename_i private_key
      cases known
      exact private_key.symm
    · cases known

end KeyType

end WalletBridge
