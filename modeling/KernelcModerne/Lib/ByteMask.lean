import Mathlib.Data.BitVec
import Mathlib.Tactic.IntervalCases

/-! The byte with one bit set, as a mask on other bytes. -/

namespace ByteMask

theorem toBitVec_bit {k : Nat} (hk : k < 8) :
    (1 <<< UInt8.ofNat k : UInt8).toBitVec = BitVec.twoPow 8 k := by
  interval_cases k <;> rfl

theorem and_bit_ne_zero {byte : UInt8} {k : Nat} (hk : k < 8) :
    ((byte &&& (1 <<< UInt8.ofNat k)) != 0) = byte.toBitVec.getLsbD k := by
  have hand : (byte &&& (1 <<< UInt8.ofNat k)).toBitVec =
      if byte.toBitVec.getLsbD k then BitVec.twoPow 8 k else 0#8 := by
    rw [UInt8.toBitVec_and, toBitVec_bit hk, BitVec.and_twoPow]
  have hpow : BitVec.twoPow 8 k ≠ 0#8 := by
    interval_cases k <;> decide
  rw [Bool.eq_iff_iff, bne_iff_ne, ne_eq, ← UInt8.toBitVec_inj, hand]
  cases byte.toBitVec.getLsbD k with
  | false => simp
  | true => simpa using hpow

/-- Setting a bit leaves the others. -/
theorem getLsbD_or_bit (byte : UInt8) {i k : Nat} (hk : k < 8) :
    (byte ||| (1 <<< UInt8.ofNat k)).toBitVec.getLsbD i = if i = k then true else byte.toBitVec.getLsbD i := by
  rw [UInt8.toBitVec_or, BitVec.getLsbD_or, toBitVec_bit hk, BitVec.getLsbD_twoPow]
  by_cases hi : i = k
  · simp [hi, hk]
  · simp [hi, Ne.symm hi]

/-- Clearing a bit leaves the others. -/
theorem getLsbD_and_not_bit (byte : UInt8) {i k : Nat} (hi : i < 8) (hk : k < 8) :
    (byte &&& ~~~(1 <<< UInt8.ofNat k)).toBitVec.getLsbD i =
      if i = k then false else byte.toBitVec.getLsbD i := by
  rw [UInt8.toBitVec_and, UInt8.toBitVec_not, BitVec.getLsbD_and, BitVec.getLsbD_not, toBitVec_bit hk,
    BitVec.getLsbD_twoPow]
  by_cases hik : i = k
  · simp [hik, hk]
  · simp [hik, Ne.symm hik, hi]

end ByteMask
