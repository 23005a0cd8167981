import Mathlib.Algebra.Group.Nat.Defs

/-! Bytes, and the low bits of them. -/
namespace UInt8

theorem or_and (a b mask : UInt8) : (a ||| b) &&& mask = a &&& mask ||| b &&& mask := by
  apply UInt8.toBitVec_inj.mp
  simp only [UInt8.toBitVec_and, UInt8.toBitVec_or]
  exact BitVec.and_or_distrib_right

theorem ofNat_le {n : Nat} (small : n ≤ 127) : UInt8.ofNat n ≤ 127 := by
  rw [UInt8.le_iff_toNat_le, UInt8.toNat_ofNat_of_lt' (show n < 256 by omega)]
  exact small

theorem toNat_and_ones (b : UInt8) (bits : Nat) (few : bits ≤ 8) :
    (b &&& UInt8.ofNat (2 ^ bits - 1)).toNat = b.toNat % 2 ^ bits := by
  have bound : 2 ^ bits ≤ 2 ^ 8 := Nat.pow_le_pow_right (by decide) few
  have ones : (UInt8.ofNat (2 ^ bits - 1)).toNat = 2 ^ bits - 1 :=
    UInt8.toNat_ofNat_of_lt' (show _ < 256 by omega)
  rw [UInt8.toNat_and, ones, Nat.and_two_pow_sub_one_eq_mod]

theorem toNat_and_four_bits (b : UInt8) : (b &&& 0x0F).toNat = b.toNat % 16 :=
  b.toNat_and_ones 4 (by decide)

theorem toNat_and_seven_bits (b : UInt8) : (b &&& 0x7F).toNat = b.toNat % 128 :=
  b.toNat_and_ones 7 (by decide)

theorem and_four_bits {b : UInt8} (small : b ≤ 15) : b &&& 0x0F = b := by
  have small : b.toNat ≤ 15 := UInt8.le_iff_toNat_le.mp small
  rw [← UInt8.toNat_inj, toNat_and_four_bits]
  omega

theorem and_seven_bits_iff (b : UInt8) : b &&& 0x7F = b ↔ b ≤ 127 := by
  rw [← UInt8.toNat_inj, toNat_and_seven_bits, UInt8.le_iff_toNat_le]
  change _ ↔ b.toNat ≤ 127
  omega

end UInt8

theorem UInt16.and_seven_bits_le (n : UInt16) : (n &&& 0x7F).toUInt8 ≤ 127 := by
  have bound : n.toNat &&& 127 ≤ 127 := Nat.and_le_right
  rw [UInt8.le_iff_toNat_le, UInt16.toNat_toUInt8, UInt16.toNat_and]
  exact Nat.le_trans (Nat.mod_le ..) bound
