import WalletBridge.Proofs.Wire.Local
import WalletBridge.Proofs.Wire.RoundTrip
import WalletBridge.Schema.Decode

namespace WalletBridge

open Wire

namespace Scalar

theorem word_lt (n : Int) : word n < 1 <<< 64 := by
  unfold word
  omega

theorem int32_ofNat_word (v : Int32) : Int32.ofNat (word v.toInt) = v := by
  have low := v.le_toInt
  have high := v.toInt_lt
  have nonneg : ((word v.toInt : Nat) : Int) = v.toInt % 0x10000000000000000 := Int.toNat_of_nonneg (by omega)
  apply Int32.toInt_inj.mp
  rw [← Int32.ofInt_eq_ofNat, Int32.toInt_ofInt, nonneg, Int.bmod, Int32.size]
  split <;> omega

theorem int64_ofNat_word (v : Int64) : Int64.ofNat (word v.toInt) = v := by
  have low := v.le_toInt
  have high := v.toInt_lt
  have nonneg : ((word v.toInt : Nat) : Int) = v.toInt % 0x10000000000000000 := Int.toNat_of_nonneg (by omega)
  apply Int64.toInt_inj.mp
  rw [← Int64.ofInt_eq_ofNat, Int64.toInt_ofInt, nonneg, Int.bmod, Int64.size]
  split <;> omega

theorem readVarint_write (n : Nat) (rest : Bytes) (bound : n < 1 <<< 64) :
    readVarint .varint (Varint.write n ++ rest) = .ok (n, rest) :=
  Varint.read_write n rest bound

theorem readBytes_writeDelimited (body rest : Bytes) (bound : (writeDelimited body).length < 1 <<< 64) :
    readBytes .lengthDelimited (writeDelimited body ++ rest) = .ok (body, rest) := by
  rw [writeDelimited, List.length_append] at bound
  exact readDelimited_writeDelimited body rest (by omega)

/-- Only texts and byte strings can be too long for their length to be written. -/
theorem decode_payload (s : Scalar) (v : s.Value) (rest : Bytes)
    (bound : (s.payload v).length < 1 <<< 64) :
    s.decode s.wireType (s.payload v ++ rest) = .ok (v, rest) := by
  cases s with
  | string =>
    simp only [decode, payload, wireType, readBytes_writeDelimited _ rest bound, Except.ok_bind]
    rw [Utf8.decode?_encode v]
    rfl
  | bool =>
    have word : v.toNat < 1 <<< 64 := by cases v <;> decide
    simp only [decode, payload, wireType, readVarint_write _ rest word, Except.ok_bind]
    cases v <;> rfl
  | int32 | keyType =>
    simp only [decode, payload, wireType, readVarint_write _ rest (word_lt _), Except.ok_bind]
    exact congrArg (fun v => Except.ok (v, rest)) (int32_ofNat_word v)
  | uint32 =>
    have word : UInt32.toNat v < 1 <<< 64 := Nat.lt_trans (UInt32.toNat_lt v) (by decide)
    simp only [decode, payload, wireType, readVarint_write _ rest word, Except.ok_bind]
    exact congrArg (fun v => Except.ok (v, rest)) UInt32.ofNat_toNat
  | int64 =>
    simp only [decode, payload, wireType, readVarint_write _ rest (word_lt _), Except.ok_bind]
    exact congrArg (fun v => Except.ok (v, rest)) (int64_ofNat_word v)
  | bytes => exact readBytes_writeDelimited v rest bound

theorem local_readVarint (w : WireType) : Local (readVarint w) :=
  Varint.local_read.check w .varint

theorem local_readBytes (w : WireType) : Local (readBytes w) :=
  local_readDelimited.check w .lengthDelimited

theorem local_decode (s : Scalar) (w : WireType) : Local (s.decode w) := by
  cases s with
  | string =>
    intro bs v rest decoded
    obtain ⟨⟨body, later⟩, read, interpreted⟩ := Except.bind_eq_ok_iff.mp decoded
    obtain ⟨front, rfl, again⟩ := local_readBytes w bs body later read
    dsimp only at interpreted
    split at interpreted
    · rename_i text utf8
      cases interpreted
      refine ⟨front, rfl, fun other => Except.bind_eq_ok_iff.mpr ⟨(body, other), again other, ?_⟩⟩
      simp only [utf8]
      rfl
    · cases interpreted
  | bool => exact (local_readVarint w).map (· != 0)
  | int32 | keyType => exact (local_readVarint w).map Int32.ofNat
  | uint32 => exact (local_readVarint w).map UInt32.ofNat
  | int64 => exact (local_readVarint w).map Int64.ofNat
  | bytes => exact local_readBytes w

theorem isValue_of_readVarint {tag n : Nat} {w : WireType} {value : Bytes}
    (read : readVarint w value = .ok (n, [])) : IsValue 1 ⟨tag, w⟩ value := by
  obtain ⟨_, checked, number⟩ := Except.bind_eq_ok_iff.mp read
  cases eq_of_checkWireType checked
  exact ⟨n, .of_read number⟩

theorem isValue_of_readBytes {tag : Nat} {w : WireType} {value body : Bytes}
    (read : readBytes w value = .ok (body, [])) : IsValue 1 ⟨tag, w⟩ value := by
  obtain ⟨_, checked, content⟩ := Except.bind_eq_ok_iff.mp read
  cases eq_of_checkWireType checked
  obtain ⟨front, delimits, rfl⟩ := readDelimited_eq_ok_iff.mp content
  rw [List.append_nil]
  exact ⟨body, delimits⟩

theorem isValue_of_decode {s : Scalar} {tag : Nat} {w : WireType} {value : Bytes} {v : s.Value}
    (decoded : s.decode w value = .ok (v, [])) : IsValue 1 ⟨tag, w⟩ value := by
  cases s with
  | string =>
    obtain ⟨⟨body, later⟩, read, decoded⟩ := Except.bind_eq_ok_iff.mp decoded
    dsimp only at decoded
    split at decoded
    · cases decoded
      exact isValue_of_readBytes read
    · cases decoded
  | bool | int32 | uint32 | int64 | keyType =>
    obtain ⟨⟨n, later⟩, read, same⟩ := Except.bind_eq_ok_iff.mp decoded
    cases same
    exact isValue_of_readVarint read
  | bytes => exact isValue_of_readBytes decoded

end Scalar

end WalletBridge
