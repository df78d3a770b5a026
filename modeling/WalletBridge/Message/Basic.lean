import WalletBridge.Object.Render
import WalletBridge.Object.Verify
import WalletBridge.Schema.Codec
import WalletBridge.Schema.Dump

namespace WalletBridge

class Message (α : Type) where
  schema : Schema
  toRecord : α → schema.Record
  ofRecord : schema.Record → α
  ofRecord_toRecord : ∀ a, ofRecord (toRecord a) = a
  toRecord_ofRecord : ∀ r, toRecord (ofRecord r) = r

namespace Message

variable {α : Type}

abbrev schemaOf (α : Type) [Message α] : Schema := schema α

variable [Message α]

theorem list_ofRecord_toRecord (as : List α) : (as.map toRecord).map ofRecord = as := by
  simp [Function.comp_def, ofRecord_toRecord]

theorem list_toRecord_ofRecord (rs : List (schemaOf α).Record) :
    (rs.map ofRecord).map toRecord = rs := by
  simp [Function.comp_def, toRecord_ofRecord]

theorem option_ofRecord_toRecord (a : Option α) : (a.map toRecord).map ofRecord = a := by
  simp [Function.comp_def, ofRecord_toRecord]

theorem option_toRecord_ofRecord (r : Option (schemaOf α).Record) :
    (r.map ofRecord).map toRecord = r := by
  simp [Function.comp_def, toRecord_ofRecord]

def encode (a : α) : Bytes :=
  (schemaOf α).encode (toRecord a)

def parse (bs : Bytes) : Except Wire.DecodeError α :=
  ((schemaOf α).parse bs).map ofRecord

def ofObject (v : Json) : Except MessageError α :=
  ((schemaOf α).readObject v).map ofRecord

def toObject (o : RenderOptions) (a : α) : Json :=
  (schemaOf α).toObject o (toRecord a)

def toJson (a : α) : Json :=
  toObject .json a

def dump (a : α) : String :=
  (schemaOf α).dump (toRecord a)

end Message

end WalletBridge
