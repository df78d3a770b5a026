import WalletBridge.Message.Any

namespace WalletBridge

namespace HdStoreCreateParam

def fields : Fields :=
  .scalar ⟨1, "password", "password"⟩ .string <|
  .scalar ⟨2, "password_hint", "passwordHint"⟩ .string <|
  .scalar ⟨3, "name", "name"⟩ .string <|
  .nil

def messageName : MessageName := ⟨"api", "HdStoreCreateParam"⟩

def schema : Schema := ⟨messageName, fields⟩

end HdStoreCreateParam

namespace HdStoreImportParam

def fields : Fields :=
  .scalar ⟨1, "chain_type", "chainType"⟩ .string <|
  .scalar ⟨2, "mnemonic", "mnemonic"⟩ .string <|
  .scalar ⟨3, "password", "password"⟩ .string <|
  .scalar ⟨4, "path", "path"⟩ .string <|
  .scalar ⟨5, "source", "source"⟩ .string <|
  .scalar ⟨6, "name", "name"⟩ .string <|
  .scalar ⟨7, "network", "network"⟩ .string <|
  .scalar ⟨8, "seg_wit", "segWit"⟩ .string <|
  .scalar ⟨9, "password_hint", "passwordHint"⟩ .string <|
  .scalar ⟨10, "overwrite", "overwrite"⟩ .bool <|
  .nil

def messageName : MessageName := ⟨"api", "HdStoreImportParam"⟩

def schema : Schema := ⟨messageName, fields⟩

end HdStoreImportParam

structure Derivation where
  chainType : String := ""
  path : String := ""
  network : String := ""
  segWit : String := ""
  chainId : String := ""
  deriving DecidableEq, Repr

namespace Derivation

def fields : Fields :=
  .scalar ⟨1, "chain_type", "chainType"⟩ .string <|
  .scalar ⟨2, "path", "path"⟩ .string <|
  .scalar ⟨3, "network", "network"⟩ .string <|
  .scalar ⟨4, "seg_wit", "segWit"⟩ .string <|
  .scalar ⟨5, "chain_id", "chainId"⟩ .string <|
  .nil

def messageName : MessageName := ⟨"api", "HdStoreDeriveParam.Derivation"⟩

instance : Message Derivation where
  schema := ⟨messageName, fields⟩
  toRecord m :=
    ((m.chainType, m.path, m.network, m.segWit, m.chainId, ()) :
      String × String × String × String × String × Unit)
  ofRecord :=
    fun ((chainType, path, network, segWit, chainId, ()) :
        String × String × String × String × String × Unit) =>
      ⟨chainType, path, network, segWit, chainId⟩
  ofRecord_toRecord _ := rfl
  toRecord_ofRecord _ := rfl

end Derivation

structure HdStoreDeriveParam where
  id : String := ""
  password : String := ""
  derivations : List Derivation := []
  deriving DecidableEq, Repr

namespace HdStoreDeriveParam

def fields : Fields :=
  .scalar ⟨1, "id", "id"⟩ .string <|
  .scalar ⟨2, "password", "password"⟩ .string <|
  .repeated ⟨3, "derivations", "derivations"⟩ Derivation.messageName Derivation.fields <|
  .nil

def messageName : MessageName := ⟨"api", "HdStoreDeriveParam"⟩

instance : Message HdStoreDeriveParam where
  schema := ⟨messageName, fields⟩
  toRecord m :=
    ((m.id, m.password, m.derivations.map Message.toRecord, ()) :
      String × String × List Derivation.fields.Record × Unit)
  ofRecord :=
    fun ((id, password, derivations, ()) :
        String × String × List Derivation.fields.Record × Unit) =>
      ⟨id, password, derivations.map Message.ofRecord⟩
  ofRecord_toRecord m := by
    cases m
    exact congrArg (fun x => (⟨_, _, x⟩ : HdStoreDeriveParam))
      (Message.list_ofRecord_toRecord _)
  toRecord_ofRecord _ :=
    Prod.ext rfl (Prod.ext rfl (Prod.ext (Message.list_toRecord_ofRecord _) rfl))

end HdStoreDeriveParam

namespace BtcForkDeriveExtraParam

def fields : Fields :=
  .scalar ⟨1, "network", "network"⟩ .string <|
  .scalar ⟨2, "seg_wit", "segWit"⟩ .string <|
  .nil

def messageName : MessageName := ⟨"api", "BtcForkDeriveExtraParam"⟩

def schema : Schema := ⟨messageName, fields⟩

end BtcForkDeriveExtraParam

structure AccountResponse where
  chainType : String := ""
  address : String := ""
  path : String := ""
  extendedXpubKey : String := ""
  deriving DecidableEq, Repr

namespace AccountResponse

def fields : Fields :=
  .scalar ⟨1, "chain_type", "chainType"⟩ .string <|
  .scalar ⟨2, "address", "address"⟩ .string <|
  .scalar ⟨3, "path", "path"⟩ .string <|
  .scalar ⟨4, "extended_xpub_key", "extendedXpubKey"⟩ .string <|
  .nil

def messageName : MessageName := ⟨"api", "AccountResponse"⟩

instance : Message AccountResponse where
  schema := ⟨messageName, fields⟩
  toRecord m :=
    ((m.chainType, m.address, m.path, m.extendedXpubKey, ()) :
      String × String × String × String × Unit)
  ofRecord :=
    fun ((chainType, address, path, extendedXpubKey, ()) :
        String × String × String × String × Unit) =>
      ⟨chainType, address, path, extendedXpubKey⟩
  ofRecord_toRecord _ := rfl
  toRecord_ofRecord _ := rfl

end AccountResponse

structure AccountsResponse where
  accounts : List AccountResponse := []
  deriving DecidableEq, Repr

namespace AccountsResponse

def fields : Fields :=
  .repeated ⟨1, "accounts", "accounts"⟩ AccountResponse.messageName AccountResponse.fields <|
  .nil

def messageName : MessageName := ⟨"api", "AccountsResponse"⟩

instance : Message AccountsResponse where
  schema := ⟨messageName, fields⟩
  toRecord m :=
    ((m.accounts.map Message.toRecord, ()) :
      List AccountResponse.fields.Record × Unit)
  ofRecord :=
    fun ((accounts, ()) :
        List AccountResponse.fields.Record × Unit) =>
      ⟨accounts.map Message.ofRecord⟩
  ofRecord_toRecord m := by
    cases m
    exact congrArg (fun x => (⟨x⟩ : AccountsResponse))
      (Message.list_ofRecord_toRecord _)
  toRecord_ofRecord _ :=
    Prod.ext (Message.list_toRecord_ofRecord _) rfl

end AccountsResponse

namespace HdStoreExtendedPublicKeyParam

def fields : Fields :=
  .scalar ⟨1, "id", "id"⟩ .string <|
  .scalar ⟨2, "password", "password"⟩ .string <|
  .scalar ⟨3, "chain_type", "chainType"⟩ .string <|
  .scalar ⟨4, "address", "address"⟩ .string <|
  .nil

def messageName : MessageName := ⟨"api", "HdStoreExtendedPublicKeyParam"⟩

def schema : Schema := ⟨messageName, fields⟩

end HdStoreExtendedPublicKeyParam

namespace HdStoreExtendedPublicKeyResponse

def fields : Fields :=
  .scalar ⟨1, "extended_public_key", "extendedPublicKey"⟩ .string <|
  .nil

def messageName : MessageName := ⟨"api", "HdStoreExtendedPublicKeyResponse"⟩

def schema : Schema := ⟨messageName, fields⟩

end HdStoreExtendedPublicKeyResponse

namespace PrivateKeyStoreImportParam

def fields : Fields :=
  .scalar ⟨1, "private_key", "privateKey"⟩ .string <|
  .scalar ⟨2, "password", "password"⟩ .string <|
  .scalar ⟨3, "chain_type", "chainType"⟩ .string <|
  .scalar ⟨4, "network", "network"⟩ .string <|
  .scalar ⟨5, "seg_wit", "segWit"⟩ .string <|
  .scalar ⟨6, "overwrite", "overwrite"⟩ .bool <|
  .nil

def messageName : MessageName := ⟨"api", "PrivateKeyStoreImportParam"⟩

def schema : Schema := ⟨messageName, fields⟩

end PrivateKeyStoreImportParam

namespace PrivateKeyStoreExportParam

def fields : Fields :=
  .scalar ⟨1, "id", "id"⟩ .string <|
  .scalar ⟨2, "password", "password"⟩ .string <|
  .scalar ⟨3, "chain_type", "chainType"⟩ .string <|
  .scalar ⟨4, "network", "network"⟩ .string <|
  .nil

def messageName : MessageName := ⟨"api", "PrivateKeyStoreExportParam"⟩

def schema : Schema := ⟨messageName, fields⟩

end PrivateKeyStoreExportParam

namespace WalletResult

def fields : Fields :=
  .scalar ⟨1, "id", "id"⟩ .string <|
  .scalar ⟨2, "name", "name"⟩ .string <|
  .scalar ⟨3, "source", "source"⟩ .string <|
  .repeated ⟨4, "accounts", "accounts"⟩ AccountResponse.messageName AccountResponse.fields <|
  .scalar ⟨5, "created_at", "createdAt"⟩ .int64 <|
  .nil

def messageName : MessageName := ⟨"api", "WalletResult"⟩

def schema : Schema := ⟨messageName, fields⟩

end WalletResult

end WalletBridge
