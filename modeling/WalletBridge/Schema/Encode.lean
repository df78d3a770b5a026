import WalletBridge.Schema.Basic
import WalletBridge.Wire.Key

namespace WalletBridge

namespace Scalar

def wireType : Scalar → Wire.WireType
  | .string | .bytes => .lengthDelimited
  | .bool | .int32 | .uint32 | .int64 | .keyType => .varint

/-- The word of 64 bits that carries an integer; negative ones are extended by their sign. -/
def word (n : Int) : Nat :=
  (n % 0x10000000000000000).toNat

def payload : (s : Scalar) → s.Value → Bytes
  | .string, v => Wire.writeDelimited (Utf8.encode v)
  | .bool, v => Wire.Varint.write v.toNat
  | .int32, v | .keyType, v => Wire.Varint.write (word (Int32.toInt v))
  | .uint32, v => Wire.Varint.write (UInt32.toNat v)
  | .int64, v => Wire.Varint.write (word (Int64.toInt v))
  | .bytes, v => Wire.writeDelimited v

def encode (s : Scalar) (tag : Nat) (v : s.Value) : Bytes :=
  if v = s.zero then [] else Wire.Key.write ⟨tag, s.wireType⟩ ++ s.payload v

end Scalar

namespace Fields

def encodeNested (tag : Nat) (body : Bytes) : Bytes :=
  Wire.Key.write ⟨tag, .lengthDelimited⟩ ++ Wire.writeDelimited body

def encode : (fs : Fields) → fs.Record → Bytes
  | .nil, _ => []
  | .scalar info kind rest, (v, r) => kind.encode info.tag v ++ rest.encode r
  | .message info _ body rest, (m, r) =>
    (m.elim [] fun m => encodeNested info.tag (body.encode m)) ++ rest.encode r
  | .repeated info _ body rest, (ms, r) =>
    ms.flatMap (fun m => encodeNested info.tag (body.encode m)) ++ rest.encode r

def nestedHead (tag length : Nat) : Bytes :=
  Wire.Key.write ⟨tag, .lengthDelimited⟩ ++ Wire.Varint.write length

def writeOnto : (fs : Fields) → Bytes → fs.Record → Bytes
  | .nil, buffer, _ => buffer
  | .scalar info kind rest, buffer, (v, r) => rest.writeOnto (buffer ++ kind.encode info.tag v) r
  | .message info _ body rest, buffer, (m, r) =>
    let nested (buffer : Bytes) (m : body.Record) :=
      body.writeOnto (buffer ++ nestedHead info.tag (body.encode m).length) m
    rest.writeOnto (m.elim buffer (nested buffer)) r
  | .repeated info _ body rest, buffer, (ms, r) =>
    let nested (buffer : Bytes) (m : body.Record) :=
      body.writeOnto (buffer ++ nestedHead info.tag (body.encode m).length) m
    rest.writeOnto (ms.foldl nested buffer) r

end Fields

namespace Schema

def encode (s : Schema) (r : s.Record) : Bytes :=
  s.fields.encode r

def encodeDelimited (s : Schema) (r : s.Record) : Bytes :=
  Wire.writeDelimited (s.encode r)

def encodeOnto (s : Schema) (buffer : Bytes) (r : s.Record) : Bytes :=
  s.fields.writeOnto buffer r

def encodeDelimitedOnto (s : Schema) (buffer : Bytes) (r : s.Record) : Bytes :=
  s.fields.writeOnto (buffer ++ Wire.Varint.write (s.encode r).length) r

end Schema

end WalletBridge
