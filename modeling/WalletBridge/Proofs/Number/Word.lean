namespace WalletBridge.Word

theorem ofInt_eq (n : Int) : UInt32.ofInt n = UInt32.ofNat (n % 0x100000000).toNat := rfl

theorem toNat_emod (n : Int) : ((n % 0x100000000).toNat : Int) = n % 0x100000000 :=
  Int.toNat_of_nonneg (Int.emod_nonneg n (by decide))

theorem toNat_ofInt (n : Int) : ((UInt32.ofInt n).toNat : Int) = n % 0x100000000 := by
  have reduced : (n % 0x100000000).toNat < UInt32.size := by
    have bound := Int.emod_lt_of_pos n (by decide : (0 : Int) < 0x100000000)
    change (n % 0x100000000).toNat < 0x100000000
    omega
  rw [ofInt_eq, UInt32.toNat_ofNat_of_lt' reduced, toNat_emod]

theorem toInt32_ofInt (n : Int) : (UInt32.ofInt n).toInt32 = Int32.ofInt n := by
  apply Int32.toInt_inj.mp
  rw [ofInt_eq, UInt32.toInt32_ofNat', ← Int32.ofInt_eq_ofNat, toNat_emod, Int32.toInt_ofInt,
    Int32.toInt_ofInt]
  exact Int.emod_bmod n 0x100000000

theorem toNat_toUInt8_ofInt (n : Int) : ((UInt32.ofInt n).toUInt8.toNat : Int) = n % 0x100 := by
  have whole := toNat_ofInt n
  rw [UInt32.toNat_toUInt8]
  omega

theorem ofInt_toNat (v : UInt32) : UInt32.ofInt v.toNat = v := by
  apply UInt32.toNat_inj.mp
  have same := toNat_ofInt v.toNat
  have bound := v.toNat_lt
  omega

theorem toUInt8_ofInt_toNat (v : UInt8) : (UInt32.ofInt v.toNat).toUInt8 = v := by
  apply UInt8.toNat_inj.mp
  have same := toNat_toUInt8_ofInt v.toNat
  have bound := v.toNat_lt
  omega

end WalletBridge.Word
