import WalletBridge.Message.Any

namespace WalletBridge

/-- What to sign lies in `input`, as the message of one of the chains. -/
structure SignParam where
  id : String := ""
  password : String := ""
  chainType : String := ""
  address : String := ""
  input : Option Any := none
  deriving DecidableEq, Repr

namespace SignParam

def fields : Fields :=
  .scalar ⟨1, "id", "id"⟩ .string <|
  .scalar ⟨2, "password", "password"⟩ .string <|
  .scalar ⟨3, "chain_type", "chainType"⟩ .string <|
  .scalar ⟨4, "address", "address"⟩ .string <|
  .message ⟨5, "input", "input"⟩ Any.messageName Any.fields <|
  .nil

def messageName : MessageName := ⟨"api", "SignParam"⟩

instance : Message SignParam where
  schema := ⟨messageName, fields⟩
  toRecord m :=
    ((m.id, m.password, m.chainType, m.address, m.input.map Message.toRecord, ()) :
      String × String × String × String × Option Any.fields.Record × Unit)
  ofRecord :=
    fun ((id, password, chainType, address, input, ()) :
        String × String × String × String × Option Any.fields.Record × Unit) =>
      ⟨id, password, chainType, address, input.map Message.ofRecord⟩
  ofRecord_toRecord m := by
    cases m
    exact congrArg (fun x => (⟨_, _, _, _, x⟩ : SignParam))
      (Message.option_ofRecord_toRecord _)
  toRecord_ofRecord _ :=
    Prod.ext rfl (Prod.ext rfl (Prod.ext rfl (Prod.ext rfl
      (Prod.ext (Message.option_toRecord_ofRecord _) rfl))))

end SignParam

end WalletBridge
