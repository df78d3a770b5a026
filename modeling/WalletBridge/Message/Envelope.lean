import WalletBridge.Message.Any

namespace WalletBridge

structure Action where
  method : String := ""
  param : Option Any := none
  deriving DecidableEq, Repr

namespace Action

def fields : Fields :=
  .scalar ⟨1, "method", "method"⟩ .string <|
  .message ⟨2, "param", "param"⟩ Any.messageName Any.fields <|
  .nil

def messageName : MessageName := ⟨"api", "TcxAction"⟩

instance : Message Action where
  schema := ⟨messageName, fields⟩
  toRecord m :=
    ((m.method, m.param.map Message.toRecord, ()) :
      String × Option Any.fields.Record × Unit)
  ofRecord :=
    fun ((method, param, ()) :
        String × Option Any.fields.Record × Unit) =>
      ⟨method, param.map Message.ofRecord⟩
  ofRecord_toRecord m := by
    cases m
    exact congrArg (fun x => (⟨_, x⟩ : Action))
      (Message.option_ofRecord_toRecord _)
  toRecord_ofRecord _ :=
    Prod.ext rfl (Prod.ext (Message.option_toRecord_ofRecord _) rfl)

end Action

structure Response where
  isSuccess : Bool := false
  error : String := ""
  deriving DecidableEq, Repr

namespace Response

def fields : Fields :=
  .scalar ⟨1, "is_success", "isSuccess"⟩ .bool <|
  .scalar ⟨2, "error", "error"⟩ .string <|
  .nil

def messageName : MessageName := ⟨"api", "Response"⟩

instance : Message Response where
  schema := ⟨messageName, fields⟩
  toRecord m :=
    ((m.isSuccess, m.error, ()) :
      Bool × String × Unit)
  ofRecord :=
    fun ((isSuccess, error, ()) :
        Bool × String × Unit) =>
      ⟨isSuccess, error⟩
  ofRecord_toRecord _ := rfl
  toRecord_ofRecord _ := rfl

end Response

structure InitParam where
  fileDir : String := ""
  xpubCommonKey : String := ""
  xpubCommonIv : String := ""
  deriving DecidableEq, Repr

namespace InitParam

def fields : Fields :=
  .scalar ⟨1, "file_dir", "fileDir"⟩ .string <|
  .scalar ⟨2, "xpub_common_key", "xpubCommonKey"⟩ .string <|
  .scalar ⟨3, "xpub_common_iv", "xpubCommonIv"⟩ .string <|
  .nil

def messageName : MessageName := ⟨"api", "InitTokenCoreXParam"⟩

instance : Message InitParam where
  schema := ⟨messageName, fields⟩
  toRecord m :=
    ((m.fileDir, m.xpubCommonKey, m.xpubCommonIv, ()) :
      String × String × String × Unit)
  ofRecord :=
    fun ((fileDir, xpubCommonKey, xpubCommonIv, ()) :
        String × String × String × Unit) =>
      ⟨fileDir, xpubCommonKey, xpubCommonIv⟩
  ofRecord_toRecord _ := rfl
  toRecord_ofRecord _ := rfl

end InitParam

end WalletBridge
