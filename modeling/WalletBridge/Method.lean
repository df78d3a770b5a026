import WalletBridge.Message.Address
import WalletBridge.Message.Envelope
import WalletBridge.Message.Keystore
import WalletBridge.Message.Signing
import WalletBridge.Message.Tron
import WalletBridge.Message.Wallet
import WalletBridge.Text.LowerCase

namespace WalletBridge

inductive Method
  | init
  | hdStoreCreate
  | hdStoreImport
  | hdStoreDerive
  | hdStoreExport
  | hdStoreExtendedPublicKey
  | privateKeyStoreImport
  | privateKeyStoreExport
  | keystoreCommonVerify
  | keystoreCommonDelete
  | keystoreCommonExists
  | keystoreCommonAccounts
  | signTx
  | tronSignMsg
  | calcExternalAddress
  | cacheDerivedKey
  | verifyDerivedKey
  | getDerivedKey
  deriving DecidableEq, Repr

namespace Method

def all : List Method :=
  [.init, .hdStoreCreate, .hdStoreImport, .hdStoreDerive, .hdStoreExport,
   .hdStoreExtendedPublicKey, .privateKeyStoreImport, .privateKeyStoreExport,
   .keystoreCommonVerify, .keystoreCommonDelete, .keystoreCommonExists, .keystoreCommonAccounts,
   .signTx, .tronSignMsg, .calcExternalAddress, .cacheDerivedKey, .verifyDerivedKey,
   .getDerivedKey]

def name : Method → String
  | .init => "init_token_core_x"
  | .hdStoreCreate => "hd_store_create"
  | .hdStoreImport => "hd_store_import"
  | .hdStoreDerive => "hd_store_derive"
  | .hdStoreExport => "hd_store_export"
  | .hdStoreExtendedPublicKey => "hd_store_extended_public_key"
  | .privateKeyStoreImport => "private_key_store_import"
  | .privateKeyStoreExport => "private_key_store_export"
  | .keystoreCommonVerify => "keystore_common_verify"
  | .keystoreCommonDelete => "keystore_common_delete"
  | .keystoreCommonExists => "keystore_common_exists"
  | .keystoreCommonAccounts => "keystore_common_accounts"
  | .signTx => "sign_tx"
  | .tronSignMsg => "tron_sign_msg"
  | .calcExternalAddress => "calc_external_address"
  | .cacheDerivedKey => "cache_derived_key"
  | .verifyDerivedKey => "verify_derived_key"
  | .getDerivedKey => "get_derived_key"

def label : Method → String
  | .init => "InitTokenCoreX"
  | .hdStoreCreate => "HdStoreCreate"
  | .hdStoreImport => "HdStoreImport"
  | .hdStoreDerive => "HdStoreDerive"
  | .hdStoreExport => "HdStoreExport"
  | .hdStoreExtendedPublicKey => "HdStoreExtendedPublicKey"
  | .privateKeyStoreImport => "PrivateKeyStoreImport"
  | .privateKeyStoreExport => "PrivateKeyStoreExport"
  | .keystoreCommonVerify => "KeystoreCommonVerify"
  | .keystoreCommonDelete => "KeystoreCommonDelete"
  | .keystoreCommonExists => "KeystoreCommonExists"
  | .keystoreCommonAccounts => "KeystoreCommonAccounts"
  | .signTx => "SignTx"
  | .tronSignMsg => "TronSignMsg"
  | .calcExternalAddress => "CalcExternalAddress"
  | .cacheDerivedKey => "CacheDerivedKey"
  | .verifyDerivedKey => "VerifyDerivedKey"
  | .getDerivedKey => "GetDerivedKey"

def param : Method → MessageName
  | .init => InitParam.messageName
  | .hdStoreCreate => HdStoreCreateParam.messageName
  | .hdStoreImport => HdStoreImportParam.messageName
  | .hdStoreDerive => HdStoreDeriveParam.messageName
  | .hdStoreExport | .keystoreCommonVerify | .keystoreCommonDelete | .getDerivedKey =>
    WalletKeyParam.messageName
  | .hdStoreExtendedPublicKey => HdStoreExtendedPublicKeyParam.messageName
  | .privateKeyStoreImport => PrivateKeyStoreImportParam.messageName
  | .privateKeyStoreExport => PrivateKeyStoreExportParam.messageName
  | .keystoreCommonExists => KeystoreCommonExistsParam.messageName
  | .keystoreCommonAccounts => KeystoreCommonAccountsParam.messageName
  | .signTx | .tronSignMsg => SignParam.messageName
  | .calcExternalAddress => ExternalAddressParam.messageName
  | .cacheDerivedKey => CacheDerivedKeyParam.messageName
  | .verifyDerivedKey => VerifyDerivedKeyParam.messageName

/-- The message of the reply, unless it is empty or depends on what is signed. -/
def result? : Method → Option MessageName
  | .init | .signTx => none
  | .hdStoreCreate | .hdStoreImport | .privateKeyStoreImport =>
    some WalletResult.messageName
  | .hdStoreDerive | .keystoreCommonAccounts => some AccountsResponse.messageName
  | .hdStoreExport | .privateKeyStoreExport => some KeystoreCommonExportResult.messageName
  | .hdStoreExtendedPublicKey => some HdStoreExtendedPublicKeyResponse.messageName
  | .keystoreCommonVerify | .keystoreCommonDelete | .cacheDerivedKey => some Response.messageName
  | .keystoreCommonExists => some KeystoreCommonExistsResult.messageName
  | .tronSignMsg => some TronMessageOutput.messageName
  | .calcExternalAddress => some ExternalAddressResult.messageName
  | .verifyDerivedKey | .getDerivedKey => some DerivedKeyResult.messageName

/-- The method that a text spells, in any case. No name has a sigma, so it does not matter where words
end. -/
def parse? (s : String) : Option Method :=
  let text := LowerCase.ofText (fun _ _ => false) [] s.toList
  all.find? (·.name.toList == text)

end Method

end WalletBridge
