import WalletBridge.Proofs.Wire.Grammar

namespace WalletBridge.Wire

namespace Varint

theorem byte_lt_iff {n : Nat} (bound : n < 256) : UInt8.ofNat n < 0x80 ↔ n < 128 := by
  rw [UInt8.lt_iff_toNat_lt, UInt8.toNat_ofNat_of_lt' bound]
  rfl

theorem digits_writeFrom (more n : Nat) (bound : n < 2 <<< (7 * more)) :
    Digits (more + 1) (writeFrom more n) n := by
  induction more generalizing n with
  | zero =>
    -- Only here does the bound matter to the digit: the last of ten may be at most one.
    have cases : n = 0 ∨ n = 1 := by omega
    rcases cases with rfl | rfl
    · exact .last (by decide) fun _ => by decide
    · exact .last (by decide) fun _ => by decide
  | succ more ih =>
    by_cases short : n < 128
    · have value : (UInt8.ofNat n).toNat = n := UInt8.toNat_ofNat_of_lt' (by omega : n < 256)
      have digit : Digits (more + 1 + 1) [UInt8.ofNat n] (UInt8.ofNat n).toNat :=
        .last ((byte_lt_iff (by omega : n < 256)).mpr short) nofun
      rw [writeFrom, if_pos short]
      rwa [value] at digit
    · have byte : n % 128 + 128 < 256 := by omega
      have marked : ¬ UInt8.ofNat (n % 128 + 128) < 0x80 := by
        rw [byte_lt_iff byte]
        omega
      have later := ih (n / 128) (by rw [Nat.mul_succ, Nat.shiftLeft_add] at bound; omega)
      have digits := Digits.next marked later
      have value : (n % 128 + 128) % 128 + 128 * (n / 128) = n := by omega
      rw [UInt8.toNat_ofNat_of_lt' byte, value] at digits
      rwa [writeFrom, if_neg short]

theorem spells_write (n : Nat) (bound : n < 1 <<< 64) : Spells (write n) n :=
  digits_writeFrom 9 n (by omega)

theorem read_write (n : Nat) (rest : Bytes) (bound : n < 1 <<< 64) :
    read (write n ++ rest) = .ok (n, rest) :=
  read_eq_ok_iff.mpr ⟨_, spells_write n bound, rfl⟩

theorem writeFrom_ne_nil (more n : Nat) : writeFrom more n ≠ [] := by
  cases more with
  | zero => simp [writeFrom]
  | succ more => unfold writeFrom; split <;> simp

theorem write_ne_nil (n : Nat) : write n ≠ [] :=
  writeFrom_ne_nil 9 n

end Varint

namespace Key

theorem spells_write (k : Key) (positive : 0 < k.tag) (bound : k.tag < 1 <<< 29) :
    Spells k.write k := by
  have code : k.wireType.code < 8 := by cases k.wireType <;> decide
  exact ⟨Varint.spells_write _ (by omega), positive, bound⟩

theorem write_ne_nil (k : Key) : k.write ≠ [] :=
  Varint.write_ne_nil _

end Key

theorem delimits_writeDelimited (body : Bytes) (bound : body.length < 1 <<< 64) :
    Delimits (writeDelimited body) body :=
  ⟨_, Varint.spells_write _ bound, rfl⟩

theorem readDelimited_writeDelimited (body rest : Bytes) (bound : body.length < 1 <<< 64) :
    readDelimited (writeDelimited body ++ rest) = .ok (body, rest) :=
  readDelimited_eq_ok_iff.mpr ⟨_, delimits_writeDelimited body bound, rfl⟩

end WalletBridge.Wire
