import WalletBridge.Message.Any

namespace WalletBridge

structure WalletKeyParam where
  id : String := ""
  password : String := ""
  deriving DecidableEq, Repr

namespace WalletKeyParam

def fields : Fields :=
  .scalar ⟨1, "id", "id"⟩ .string <|
  .scalar ⟨2, "password", "password"⟩ .string <|
  .nil

def messageName : MessageName := ⟨"api", "WalletKeyParam"⟩

instance : Message WalletKeyParam where
  schema := ⟨messageName, fields⟩
  toRecord m :=
    ((m.id, m.password, ()) :
      String × String × Unit)
  ofRecord :=
    fun ((id, password, ()) :
        String × String × Unit) =>
      ⟨id, password⟩
  ofRecord_toRecord _ := rfl
  toRecord_ofRecord _ := rfl

end WalletKeyParam

namespace KeystoreCommonAccountsParam

def fields : Fields :=
  .scalar ⟨1, "id", "id"⟩ .string <|
  .nil

def messageName : MessageName := ⟨"api", "KeystoreCommonAccountsParam"⟩

def schema : Schema := ⟨messageName, fields⟩

end KeystoreCommonAccountsParam

namespace KeystoreCommonExistsParam

def fields : Fields :=
  .scalar ⟨1, "r#type", "type"⟩ .keyType <|
  .scalar ⟨2, "value", "value"⟩ .string <|
  .nil

def messageName : MessageName := ⟨"api", "KeystoreCommonExistsParam"⟩

def schema : Schema := ⟨messageName, fields⟩

end KeystoreCommonExistsParam

namespace KeystoreCommonExportResult

def fields : Fields :=
  .scalar ⟨1, "id", "id"⟩ .string <|
  .scalar ⟨2, "r#type", "type"⟩ .keyType <|
  .scalar ⟨3, "value", "value"⟩ .string <|
  .nil

def messageName : MessageName := ⟨"api", "KeystoreCommonExportResult"⟩

def schema : Schema := ⟨messageName, fields⟩

end KeystoreCommonExportResult

namespace KeystoreCommonExistsResult

def fields : Fields :=
  .scalar ⟨1, "is_exists", "isExists"⟩ .bool <|
  .scalar ⟨2, "id", "id"⟩ .string <|
  .nil

def messageName : MessageName := ⟨"api", "KeystoreCommonExistsResult"⟩

def schema : Schema := ⟨messageName, fields⟩

end KeystoreCommonExistsResult

namespace CacheDerivedKeyParam

def fields : Fields :=
  .scalar ⟨1, "id", "id"⟩ .string <|
  .scalar ⟨2, "derived_key", "derivedKey"⟩ .string <|
  .scalar ⟨3, "temp_password", "tempPassword"⟩ .string <|
  .nil

def messageName : MessageName := ⟨"api", "CacheDerivedKeyParam"⟩

def schema : Schema := ⟨messageName, fields⟩

end CacheDerivedKeyParam

structure VerifyDerivedKeyParam where
  id : String := ""
  derivedKey : String := ""
  deriving DecidableEq, Repr

namespace VerifyDerivedKeyParam

def fields : Fields :=
  .scalar ⟨1, "id", "id"⟩ .string <|
  .scalar ⟨2, "derived_key", "derivedKey"⟩ .string <|
  .nil

def messageName : MessageName := ⟨"api", "VerifyDerivedKeyParam"⟩

instance : Message VerifyDerivedKeyParam where
  schema := ⟨messageName, fields⟩
  toRecord m :=
    ((m.id, m.derivedKey, ()) :
      String × String × Unit)
  ofRecord :=
    fun ((id, derivedKey, ()) :
        String × String × Unit) =>
      ⟨id, derivedKey⟩
  ofRecord_toRecord _ := rfl
  toRecord_ofRecord _ := rfl

end VerifyDerivedKeyParam

structure DerivedKeyResult where
  id : String := ""
  derivedKey : String := ""
  deriving DecidableEq, Repr

namespace DerivedKeyResult

def fields : Fields :=
  .scalar ⟨1, "id", "id"⟩ .string <|
  .scalar ⟨2, "derived_key", "derivedKey"⟩ .string <|
  .nil

def messageName : MessageName := ⟨"api", "DerivedKeyResult"⟩

instance : Message DerivedKeyResult where
  schema := ⟨messageName, fields⟩
  toRecord m :=
    ((m.id, m.derivedKey, ()) :
      String × String × Unit)
  ofRecord :=
    fun ((id, derivedKey, ()) :
        String × String × Unit) =>
      ⟨id, derivedKey⟩
  ofRecord_toRecord _ := rfl
  toRecord_ofRecord _ := rfl

end DerivedKeyResult

end WalletBridge
