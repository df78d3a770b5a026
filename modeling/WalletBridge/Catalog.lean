import WalletBridge.Message.Envelope
import WalletBridge.Message.Wallet
import WalletBridge.Message.Keystore
import WalletBridge.Message.Address
import WalletBridge.Message.Bitcoin
import WalletBridge.Message.Tron
import WalletBridge.Message.Signing

namespace WalletBridge.Catalog

def all : List Schema :=
  [Message.schemaOf Any,
   Message.schemaOf Action,
   Message.schemaOf Response,
   Message.schemaOf InitParam,
   HdStoreCreateParam.schema,
   HdStoreImportParam.schema,
   Message.schemaOf HdStoreDeriveParam,
   Message.schemaOf Derivation,
   BtcForkDeriveExtraParam.schema,
   Message.schemaOf AccountResponse,
   Message.schemaOf AccountsResponse,
   HdStoreExtendedPublicKeyParam.schema,
   HdStoreExtendedPublicKeyResponse.schema,
   KeystoreCommonAccountsParam.schema,
   PrivateKeyStoreImportParam.schema,
   PrivateKeyStoreExportParam.schema,
   Message.schemaOf WalletKeyParam,
   KeystoreCommonExistsParam.schema,
   KeystoreCommonExportResult.schema,
   KeystoreCommonExistsResult.schema,
   Message.schemaOf SignParam,
   WalletResult.schema,
   Message.schemaOf ExternalAddressParam,
   Message.schemaOf ExternalAddressResult,
   ExternalAddressExtra.schema,
   ExternalAddress.schema,
   CacheDerivedKeyParam.schema,
   Message.schemaOf VerifyDerivedKeyParam,
   Message.schemaOf DerivedKeyResult,
   Message.schemaOf Utxo,
   Message.schemaOf BtcForkTxInput,
   Message.schemaOf BtcForkSignedTxOutput,
   Message.schemaOf TronTxInput,
   Message.schemaOf TronTxOutput,
   Message.schemaOf TronMessageInput,
   Message.schemaOf TronMessageOutput]

def find? (fullName : String) : Option Schema :=
  all.find? (·.name.full == fullName)

end WalletBridge.Catalog
