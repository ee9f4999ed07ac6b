import Mathlib.Algebra.BigOperators.Intervals
import Mathlib.Data.Nat.ModEq

/-! A number of `w + 1` bits that is doubled again and again: what it comes to over
all steps is given by the number of its bits that are set. -/

namespace Doubling

variable {w a : Nat}

/-- How many of the `w` low bits of `a` are set. -/
def ones (w a : Nat) : Nat := ∑ i ∈ Finset.range w, a / 2 ^ i % 2

theorem double_mod (w a : Nat) : 2 * a % 2 ^ (w + 1) = 2 * (a % 2 ^ w) := by
  rw [Nat.pow_succ', Nat.mul_mod_mul_left]

theorem bit_double_mod {i : Nat} (hi : i < w) (a : Nat) :
    2 * a % 2 ^ (w + 1) / 2 ^ (i + 1) % 2 = a / 2 ^ i % 2 := by
  have hsplit : 2 ^ w = 2 ^ i * 2 ^ (w - i) := by
    rw [← Nat.pow_add, Nat.add_sub_cancel' hi.le]
  have heven : 2 ∣ 2 ^ (w - i) := dvd_pow_self 2 (Nat.sub_ne_zero_of_lt hi)
  rw [double_mod, Nat.pow_succ', Nat.mul_div_mul_left _ _ Nat.two_pos, hsplit,
    Nat.mod_mul_right_div_self, Nat.mod_mod_of_dvd _ heven]

/-- Doubling moves the top bit out and the others up. -/
theorem ones_double (ha : a < 2 ^ (w + 1)) :
    ones (w + 1) a = ones (w + 1) (2 * a % 2 ^ (w + 1)) + a / 2 ^ w := by
  have htop : a / 2 ^ w % 2 = a / 2 ^ w :=
    Nat.mod_eq_of_lt (Nat.div_lt_of_lt_mul (by rwa [Nat.pow_succ] at ha))
  have hlow : 2 * a % 2 ^ (w + 1) / 2 ^ 0 % 2 = 0 := by
    rw [double_mod, Nat.pow_zero, Nat.div_one, Nat.mul_mod_right]
  rw [ones, Finset.sum_range_succ, htop, ones, Finset.sum_range_succ', hlow, Nat.add_zero]
  congr 1
  exact Finset.sum_congr rfl fun i hi => (bit_double_mod (Finset.mem_range.mp hi) a).symm

theorem le_mul_ones (ha : a < 2 ^ w) : a ≤ 2 ^ w * ones w a := by
  induction w with
  | zero => omega
  | succ w ih =>
    rw [ones, Finset.sum_range_succ, ← ones]
    by_cases htop : a < 2 ^ w
    · calc a ≤ 2 ^ w * ones w a := ih htop
        _ ≤ 2 ^ (w + 1) * ones w a := Nat.mul_le_mul_right _ (Nat.pow_le_pow_right Nat.two_pos (Nat.le_succ w))
        _ ≤ _ := Nat.mul_le_mul_left _ (Nat.le_add_right _ _)
    · have hbit : a / 2 ^ w % 2 = 1 := by
        have hone : a / 2 ^ w = 1 := Nat.div_eq_of_lt_le (by omega) (by rw [Nat.pow_succ] at ha; omega)
        rw [hone]
      rw [hbit, Nat.mul_add, Nat.mul_one]
      omega

/-- The doubled number and the bit moved out of it. -/
theorem double_eq (ha : a < 2 ^ (w + 1)) :
    2 * a + 2 ^ (w + 1) * ones (w + 1) (2 * a % 2 ^ (w + 1)) =
      2 * a % 2 ^ (w + 1) + 2 ^ (w + 1) * ones (w + 1) a := by
  have hdiv : 2 * a / 2 ^ (w + 1) = a / 2 ^ w := by
    rw [Nat.pow_succ', Nat.mul_div_mul_left _ _ Nat.two_pos]
  have hsplit := Nat.mod_add_div (2 * a) (2 ^ (w + 1))
  rw [ones_double ha, Nat.mul_add, ← hdiv]
  omega

end Doubling
