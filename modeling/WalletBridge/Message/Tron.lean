import WalletBridge.Message.Any

namespace WalletBridge

structure TronTxInput where
  rawData : Bytes := []
  deriving DecidableEq, Repr

namespace TronTxInput

def fields : Fields :=
  .scalar ⟨1, "raw_data", "rawData"⟩ .bytes <|
  .nil

def messageName : MessageName := ⟨"transaction", "TronTxInput"⟩

instance : Message TronTxInput where
  schema := ⟨messageName, fields⟩
  toRecord m :=
    ((m.rawData, ()) :
      Bytes × Unit)
  ofRecord :=
    fun ((rawData, ()) :
        Bytes × Unit) =>
      ⟨rawData⟩
  ofRecord_toRecord _ := rfl
  toRecord_ofRecord _ := rfl

end TronTxInput

structure TronTxOutput where
  signature : Bytes := []
  deriving DecidableEq, Repr

namespace TronTxOutput

def fields : Fields :=
  .scalar ⟨1, "signature", "signature"⟩ .bytes <|
  .nil

def messageName : MessageName := ⟨"transaction", "TronTxOutput"⟩

instance : Message TronTxOutput where
  schema := ⟨messageName, fields⟩
  toRecord m :=
    ((m.signature, ()) :
      Bytes × Unit)
  ofRecord :=
    fun ((signature, ()) :
        Bytes × Unit) =>
      ⟨signature⟩
  ofRecord_toRecord _ := rfl
  toRecord_ofRecord _ := rfl

end TronTxOutput

/-- The text to sign, or with `isHex` its bytes as hex. -/
structure TronMessageInput where
  value : String := ""
  isHex : Bool := false
  isTronHeader : Bool := false
  deriving DecidableEq, Repr

namespace TronMessageInput

def fields : Fields :=
  .scalar ⟨1, "value", "value"⟩ .string <|
  .scalar ⟨2, "is_hex", "isHex"⟩ .bool <|
  .scalar ⟨3, "is_tron_header", "isTronHeader"⟩ .bool <|
  .nil

def messageName : MessageName := ⟨"transaction", "TronMessageInput"⟩

instance : Message TronMessageInput where
  schema := ⟨messageName, fields⟩
  toRecord m :=
    ((m.value, m.isHex, m.isTronHeader, ()) :
      String × Bool × Bool × Unit)
  ofRecord :=
    fun ((value, isHex, isTronHeader, ()) :
        String × Bool × Bool × Unit) =>
      ⟨value, isHex, isTronHeader⟩
  ofRecord_toRecord _ := rfl
  toRecord_ofRecord _ := rfl

end TronMessageInput

structure TronMessageOutput where
  signature : String := ""
  deriving DecidableEq, Repr

namespace TronMessageOutput

def fields : Fields :=
  .scalar ⟨1, "signature", "signature"⟩ .string <|
  .nil

def messageName : MessageName := ⟨"transaction", "TronMessageOutput"⟩

instance : Message TronMessageOutput where
  schema := ⟨messageName, fields⟩
  toRecord m :=
    ((m.signature, ()) :
      String × Unit)
  ofRecord :=
    fun ((signature, ()) :
        String × Unit) =>
      ⟨signature⟩
  ofRecord_toRecord _ := rfl
  toRecord_ofRecord _ := rfl

end TronMessageOutput

end WalletBridge
