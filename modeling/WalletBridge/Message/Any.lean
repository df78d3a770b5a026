import WalletBridge.Message.Basic

namespace WalletBridge

structure Any where
  typeUrl : String := ""
  value : Bytes := []
  deriving DecidableEq, Repr

namespace Any

def fields : Fields :=
  .scalar ⟨1, "type_url", "type_url"⟩ .string <|
  .scalar ⟨2, "value", "value"⟩ .bytes <|
  .nil

def messageName : MessageName := ⟨"google.protobuf", "Any"⟩

instance : Message Any where
  schema := ⟨messageName, fields⟩
  toRecord a := ((a.typeUrl, a.value, ()) : String × Bytes × Unit)
  ofRecord := fun ((typeUrl, value, ()) : String × Bytes × Unit) => ⟨typeUrl, value⟩
  ofRecord_toRecord _ := rfl
  toRecord_ofRecord _ := rfl

end Any

namespace Schema

def pack (s : Schema) (r : s.Record) : Any :=
  ⟨s.name.typeUrl, s.encode r⟩

@[simp] theorem pack_typeUrl (s : Schema) (r : s.Record) : (s.pack r).typeUrl = s.name.typeUrl := rfl

@[simp] theorem pack_value (s : Schema) (r : s.Record) : (s.pack r).value = s.encode r := rfl

/-- Refuses an address of another type before it looks at the bytes. -/
def unpack (s : Schema) (a : Any) : Except MessageError s.Record :=
  if s.name.matchesUrl a.typeUrl then s.decode a.value none
  else .error (.typeUrlMismatch s.name.typeUrl a.typeUrl)

end Schema

namespace Message

variable {α : Type} [Message α]

def pack (a : α) : Any :=
  (schemaOf α).pack (toRecord a)

def unpack (a : Any) : Except MessageError α :=
  ((schemaOf α).unpack a).map ofRecord

end Message

end WalletBridge
