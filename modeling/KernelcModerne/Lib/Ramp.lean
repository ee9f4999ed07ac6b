import Mathlib.Algebra.Order.Field.Basic
import Mathlib.Order.Interval.Set.UnorderedInterval
import Mathlib.Tactic.Linarith

/-! Values that move towards a target by limited steps. -/

namespace Ramp

/-- `std::clamp`. -/
def clamp {α : Type*} [LinearOrder α] (value low high : α) : α :=
  if value < low then low else if high < value then high else value

theorem clamp_mem {α : Type*} [LinearOrder α] {value low high : α} (h : low ≤ high) :
    low ≤ clamp value low high ∧ clamp value low high ≤ high := by
  unfold clamp
  split
  · exact ⟨le_refl low, h⟩
  · next hlow =>
    split
    · exact ⟨h, le_refl high⟩
    · next hhigh => exact ⟨not_lt.mp hlow, not_lt.mp hhigh⟩

variable {κ : Type*} [Field κ] [LinearOrder κ] [IsStrictOrderedRing κ]

/-- A value moved towards a target, by `change` at most. -/
def approach (current target change : κ) : κ := current + clamp (target - current) (-change) change

variable {current target change : κ}

theorem approach_of_le (h : current ≤ target) (hchange : 0 ≤ change) :
    approach current target change = min (current + change) target := by
  unfold approach clamp
  rw [if_neg (by linarith)]
  split
  · rw [min_eq_left (by linarith)]
  · rw [min_eq_right (by linarith)]
    linarith

theorem approach_of_ge (h : target ≤ current) (hchange : 0 ≤ change) :
    approach current target change = max (current - change) target := by
  unfold approach clamp
  split
  · rw [max_eq_left (by linarith)]
    linarith
  · rw [if_neg (by linarith), max_eq_right (by linarith)]
    linarith

@[simp] theorem approach_zero (current target : κ) : approach current target 0 = current := by
  cases le_total current target with
  | inl h => rw [approach_of_le h (le_refl 0), add_zero, min_eq_left h]
  | inr h => rw [approach_of_ge h (le_refl 0), sub_zero, max_eq_left h]

/-- It does not pass the target. -/
theorem approach_mem_uIcc (current target : κ) (hchange : 0 ≤ change) :
    approach current target change ∈ Set.uIcc current target := by
  cases le_total current target with
  | inl h =>
    rw [approach_of_le h hchange, Set.uIcc_of_le h]
    exact ⟨le_min (by linarith) h, min_le_right _ _⟩
  | inr h =>
    rw [approach_of_ge h hchange, Set.uIcc_of_ge h]
    exact ⟨le_max_right _ _, max_le (by linarith) h⟩

/-- Two moves are one by both changes. -/
theorem approach_approach (current target : κ) {first second : κ} (hfirst : 0 ≤ first) (hsecond : 0 ≤ second) :
    approach (approach current target first) target second = approach current target (first + second) := by
  cases le_total current target with
  | inl h =>
    rw [approach_of_le h hfirst, approach_of_le (min_le_right _ _) hsecond, approach_of_le h (by linarith)]
    grind
  | inr h =>
    rw [approach_of_ge h hfirst, approach_of_ge (le_max_right _ _) hsecond, approach_of_ge h (by linarith)]
    grind

/-- The target is reached by a change of at least the distance. -/
theorem approach_eq_target_iff (hchange : 0 ≤ change) :
    approach current target change = target ↔ |target - current| ≤ change := by
  cases le_total current target with
  | inl h =>
    rw [approach_of_le h hchange, min_eq_right_iff, abs_of_nonneg (by linarith)]
    constructor <;> intro <;> linarith
  | inr h =>
    rw [approach_of_ge h hchange, max_eq_right_iff, abs_of_nonpos (by linarith)]
    constructor <;> intro <;> linarith

end Ramp
