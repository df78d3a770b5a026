import WalletBridge.Message.Any

namespace WalletBridge

structure Utxo where
  txHash : String := ""
  vout : Int32 := 0
  amount : Int64 := 0
  address : String := ""
  scriptPubKey : String := ""
  derivedPath : String := ""
  sequence : Int64 := 0
  deriving DecidableEq, Repr

namespace Utxo

def fields : Fields :=
  .scalar ⟨1, "tx_hash", "txHash"⟩ .string <|
  .scalar ⟨2, "vout", "vout"⟩ .int32 <|
  .scalar ⟨3, "amount", "amount"⟩ .int64 <|
  .scalar ⟨4, "address", "address"⟩ .string <|
  .scalar ⟨5, "script_pub_key", "scriptPubKey"⟩ .string <|
  .scalar ⟨6, "derived_path", "derivedPath"⟩ .string <|
  .scalar ⟨7, "sequence", "sequence"⟩ .int64 <|
  .nil

def messageName : MessageName := ⟨"transaction", "Utxo"⟩

instance : Message Utxo where
  schema := ⟨messageName, fields⟩
  toRecord m :=
    ((m.txHash, m.vout, m.amount, m.address, m.scriptPubKey, m.derivedPath, m.sequence, ()) :
      String × Int32 × Int64 × String × String × String × Int64 × Unit)
  ofRecord :=
    fun ((txHash, vout, amount, address, scriptPubKey, derivedPath, sequence, ()) :
        String × Int32 × Int64 × String × String × String × Int64 × Unit) =>
      ⟨txHash, vout, amount, address, scriptPubKey, derivedPath, sequence⟩
  ofRecord_toRecord _ := rfl
  toRecord_ofRecord _ := rfl

end Utxo

structure BtcForkTxInput where
  recipient : String := ""
  amount : Int64 := 0
  unspents : List Utxo := []
  memo : String := ""
  fee : Int64 := 0
  changeIdx : UInt32 := 0
  changeAddress : String := ""
  network : String := ""
  segWit : String := ""
  deriving DecidableEq, Repr

namespace BtcForkTxInput

def fields : Fields :=
  .scalar ⟨1, "to", "to"⟩ .string <|
  .scalar ⟨2, "amount", "amount"⟩ .int64 <|
  .repeated ⟨3, "unspents", "unspents"⟩ Utxo.messageName Utxo.fields <|
  .scalar ⟨4, "memo", "memo"⟩ .string <|
  .scalar ⟨5, "fee", "fee"⟩ .int64 <|
  .scalar ⟨6, "change_idx", "changeIdx"⟩ .uint32 <|
  .scalar ⟨7, "change_address", "changeAddress"⟩ .string <|
  .scalar ⟨8, "network", "network"⟩ .string <|
  .scalar ⟨9, "seg_wit", "segWit"⟩ .string <|
  .nil

def messageName : MessageName := ⟨"transaction", "BtcForkTxInput"⟩

instance : Message BtcForkTxInput where
  schema := ⟨messageName, fields⟩
  toRecord m :=
    ((m.recipient, m.amount, m.unspents.map Message.toRecord, m.memo, m.fee, m.changeIdx,
      m.changeAddress, m.network, m.segWit, ()) :
      String × Int64 × List Utxo.fields.Record × String × Int64 × UInt32 × String × String × String
        × Unit)
  ofRecord :=
    fun ((recipient, amount, unspents, memo, fee, changeIdx, changeAddress, network, segWit, ()) :
        String × Int64 × List Utxo.fields.Record × String × Int64 × UInt32 × String × String ×
          String × Unit) =>
      ⟨recipient, amount, unspents.map Message.ofRecord, memo, fee, changeIdx, changeAddress,
       network, segWit⟩
  ofRecord_toRecord m := by
    cases m
    exact congrArg (fun x => (⟨_, _, x, _, _, _, _, _, _⟩ : BtcForkTxInput))
      (Message.list_ofRecord_toRecord _)
  toRecord_ofRecord _ :=
    Prod.ext rfl (Prod.ext rfl (Prod.ext (Message.list_toRecord_ofRecord _) rfl))

end BtcForkTxInput

structure BtcForkSignedTxOutput where
  signature : String := ""
  txHash : String := ""
  deriving DecidableEq, Repr

namespace BtcForkSignedTxOutput

def fields : Fields :=
  .scalar ⟨1, "signature", "signature"⟩ .string <|
  .scalar ⟨2, "tx_hash", "txHash"⟩ .string <|
  .nil

def messageName : MessageName := ⟨"transaction", "BtcForkSignedTxOutput"⟩

instance : Message BtcForkSignedTxOutput where
  schema := ⟨messageName, fields⟩
  toRecord m :=
    ((m.signature, m.txHash, ()) :
      String × String × Unit)
  ofRecord :=
    fun ((signature, txHash, ()) :
        String × String × Unit) =>
      ⟨signature, txHash⟩
  ofRecord_toRecord _ := rfl
  toRecord_ofRecord _ := rfl

end BtcForkSignedTxOutput

end WalletBridge
