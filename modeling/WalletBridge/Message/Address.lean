import WalletBridge.Message.Any

namespace WalletBridge

structure ExternalAddressParam where
  id : String := ""
  chainType : String := ""
  externalIdx : UInt32 := 0
  deriving DecidableEq, Repr

namespace ExternalAddressParam

def fields : Fields :=
  .scalar ⟨1, "id", "id"⟩ .string <|
  .scalar ⟨2, "chain_type", "chainType"⟩ .string <|
  .scalar ⟨3, "external_idx", "externalIdx"⟩ .uint32 <|
  .nil

def messageName : MessageName := ⟨"api", "ExternalAddressParam"⟩

instance : Message ExternalAddressParam where
  schema := ⟨messageName, fields⟩
  toRecord m :=
    ((m.id, m.chainType, m.externalIdx, ()) :
      String × String × UInt32 × Unit)
  ofRecord :=
    fun ((id, chainType, externalIdx, ()) :
        String × String × UInt32 × Unit) =>
      ⟨id, chainType, externalIdx⟩
  ofRecord_toRecord _ := rfl
  toRecord_ofRecord _ := rfl

end ExternalAddressParam

structure ExternalAddressResult where
  address : String := ""
  derivedPath : String := ""
  type : String := ""
  deriving DecidableEq, Repr

namespace ExternalAddressResult

def fields : Fields :=
  .scalar ⟨1, "address", "address"⟩ .string <|
  .scalar ⟨2, "derived_path", "derivedPath"⟩ .string <|
  .scalar ⟨3, "r#type", "type"⟩ .string <|
  .nil

def messageName : MessageName := ⟨"api", "ExternalAddressResult"⟩

instance : Message ExternalAddressResult where
  schema := ⟨messageName, fields⟩
  toRecord m :=
    ((m.address, m.derivedPath, m.type, ()) :
      String × String × String × Unit)
  ofRecord :=
    fun ((address, derivedPath, type, ()) :
        String × String × String × Unit) =>
      ⟨address, derivedPath, type⟩
  ofRecord_toRecord _ := rfl
  toRecord_ofRecord _ := rfl

end ExternalAddressResult

namespace ExternalAddress

def fields : Fields :=
  .scalar ⟨1, "address", "address"⟩ .string <|
  .scalar ⟨2, "derived_path", "derivedPath"⟩ .string <|
  .scalar ⟨3, "r#type", "type"⟩ .string <|
  .nil

def messageName : MessageName := ⟨"api", "ExternalAddressExtra.ExternalAddress"⟩

def schema : Schema := ⟨messageName, fields⟩

end ExternalAddress

namespace ExternalAddressExtra

def fields : Fields :=
  .scalar ⟨1, "enc_xpub", "encXpub"⟩ .string <|
  .message ⟨2, "external_address", "externalAddress"⟩ ExternalAddress.messageName
    ExternalAddress.fields <|
  .nil

def messageName : MessageName := ⟨"api", "ExternalAddressExtra"⟩

def schema : Schema := ⟨messageName, fields⟩

end ExternalAddressExtra

end WalletBridge
