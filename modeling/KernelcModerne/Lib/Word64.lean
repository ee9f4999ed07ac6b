import Mathlib.Data.Nat.Bitwise

/-! Unsigned 64-bit arithmetic on natural numbers, as `size_t` and `uintptr_t`
compute it. -/

namespace Word64

def add (a b : Nat) : Nat := (a + b) % 2 ^ 64

def sub (a b : Nat) : Nat := (a + (2 ^ 64 - b % 2 ^ 64)) % 2 ^ 64

def mul (a b : Nat) : Nat := (a * b) % 2 ^ 64

theorem add_eq_of_lt {a b : Nat} (h : a + b < 2 ^ 64) : add a b = a + b :=
  Nat.mod_eq_of_lt h

theorem sub_eq_of_le {a b : Nat} (hle : b ≤ a) (ha : a < 2 ^ 64) : sub a b = a - b := by
  unfold sub
  omega

theorem mul_eq_of_lt {a b : Nat} (h : a * b < 2 ^ 64) : mul a b = a * b :=
  Nat.mod_eq_of_lt h

theorem add_lt (a b : Nat) : add a b < 2 ^ 64 := Nat.mod_lt _ (by decide)

/-- Subtracting what was added gives the old value back, wrapped or not. -/
theorem sub_add_cancel_left {a b : Nat} (hb : b < 2 ^ 64) : sub (add a b) a = b := by
  unfold sub add
  omega

theorem sub_add_cancel_right {a : Nat} (ha : a < 2 ^ 64) (b : Nat) : sub (add a b) b = a := by
  unfold sub add
  omega

end Word64
