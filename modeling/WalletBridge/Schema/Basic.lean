import WalletBridge.Schema.KeyType
import WalletBridge.Schema.Name
import WalletBridge.Text.Utf8

namespace WalletBridge

inductive Scalar
  | string
  | bool
  | int32
  | uint32
  | int64
  | bytes
  /-- Open: numbers without a name are values too. -/
  | keyType
  deriving DecidableEq, Repr

namespace Scalar

def Value : Scalar → Type
  | .string => String
  | .bool => Bool
  | .int32 | .keyType => Int32
  | .uint32 => UInt32
  | .int64 => Int64
  | .bytes => Bytes

def zero : (s : Scalar) → s.Value
  | .string => ""
  | .bool => false
  | .int32 | .keyType => (0 : Int32)
  | .uint32 => (0 : UInt32)
  | .int64 => (0 : Int64)
  | .bytes => ([] : List UInt8)

instance : (s : Scalar) → DecidableEq s.Value
  | .string => inferInstanceAs (DecidableEq String)
  | .bool => inferInstanceAs (DecidableEq Bool)
  | .int32 | .keyType => inferInstanceAs (DecidableEq Int32)
  | .uint32 => inferInstanceAs (DecidableEq UInt32)
  | .int64 => inferInstanceAs (DecidableEq Int64)
  | .bytes => inferInstanceAs (DecidableEq (List UInt8))

end Scalar

/-- A field's number on the wire, its label in reports and its key in plain objects. -/
structure FieldInfo where
  tag : Nat
  label : String
  key : String
  deriving DecidableEq, Repr

inductive Fields
  | nil
  | scalar (info : FieldInfo) (kind : Scalar) (rest : Fields)
  | message (info : FieldInfo) (name : MessageName) (body rest : Fields)
  | repeated (info : FieldInfo) (name : MessageName) (body rest : Fields)
  deriving DecidableEq, Repr

namespace Fields

def Record : Fields → Type
  | .nil => Unit
  | .scalar _ kind rest => kind.Value × rest.Record
  | .message _ _ body rest => Option body.Record × rest.Record
  | .repeated _ _ body rest => List body.Record × rest.Record

def zero : (fs : Fields) → fs.Record
  | .nil => ()
  | .scalar _ kind rest => (kind.zero, rest.zero)
  | .message _ _ _ rest => (none, rest.zero)
  | .repeated _ _ _ rest => ([], rest.zero)

instance decEqRecord : (fs : Fields) → DecidableEq fs.Record
  | .nil => inferInstanceAs (DecidableEq Unit)
  | .scalar _ kind rest =>
    have := decEqRecord rest
    inferInstanceAs (DecidableEq (kind.Value × rest.Record))
  | .message _ _ body rest =>
    have := decEqRecord body
    have := decEqRecord rest
    inferInstanceAs (DecidableEq (Option body.Record × rest.Record))
  | .repeated _ _ body rest =>
    have := decEqRecord body
    have := decEqRecord rest
    inferInstanceAs (DecidableEq (List body.Record × rest.Record))

def infos : Fields → List FieldInfo
  | .nil => []
  | .scalar info _ rest | .message info _ _ rest | .repeated info _ _ rest => info :: rest.infos

end Fields

structure Schema where
  name : MessageName
  fields : Fields
  deriving DecidableEq, Repr

namespace Schema

abbrev Record (s : Schema) : Type := s.fields.Record

def zero (s : Schema) : s.Record := s.fields.zero

end Schema

end WalletBridge
