import Mathlib.Algebra.Order.BigOperators.Group.List
import Mathlib.Algebra.Order.Field.Basic
import Mathlib.Data.List.Sort

/-! The values of a list by their places in its order. -/

namespace OrderStatistic

variable {α : Type*} [LinearOrder α] {l : List α} {i j : Nat}

/-- The list in ascending order. -/
def ascending (l : List α) : List α := l.insertionSort (· ≤ ·)

theorem ascending_perm (l : List α) : (ascending l).Perm l := List.perm_insertionSort _ l

theorem length_ascending (l : List α) : (ascending l).length = l.length := (ascending_perm l).length_eq

theorem getElem_ascending_mem (hi : i < (ascending l).length) : (ascending l)[i] ∈ l :=
  (ascending_perm l).mem_iff.mp (List.getElem_mem hi)

/-- A later place holds no smaller value. -/
theorem getElem_ascending_mono (hij : i ≤ j) (hj : j < (ascending l).length) :
    (ascending l)[i] ≤ (ascending l)[j] :=
  List.sortedLE_insertionSort.monotone_get (a := ⟨i, Nat.lt_of_le_of_lt hij hj⟩) (b := ⟨j, hj⟩) hij

/-- At least the values up to its place are at most a value. -/
theorem succ_le_countP (hi : i < (ascending l).length) :
    i + 1 ≤ l.countP fun x => decide (x ≤ (ascending l)[i]) := by
  rw [← (ascending_perm l).countP_eq]
  calc i + 1
    _ = ((ascending l).take (i + 1)).length := by rw [List.length_take]; omega
    _ = ((ascending l).take (i + 1)).countP fun x => decide (x ≤ (ascending l)[i]) := by
      refine (List.countP_eq_length.mpr fun x hx => ?_).symm
      obtain ⟨k, hk, rfl⟩ := List.mem_iff_getElem.mp hx
      rw [List.length_take] at hk
      rw [List.getElem_take, decide_eq_true_eq]
      exact getElem_ascending_mono (by omega) hi
    _ ≤ (ascending l).countP fun x => decide (x ≤ (ascending l)[i]) :=
      (List.take_sublist _ _).countP_le

theorem first_le {x : α} (h : 0 < (ascending l).length) (hx : x ∈ l) : (ascending l)[0] ≤ x := by
  obtain ⟨i, hi, rfl⟩ := List.mem_iff_getElem.mp ((ascending_perm l).mem_iff.mpr hx)
  exact getElem_ascending_mono (Nat.zero_le i) hi

theorem le_last {x : α} (h : l.length - 1 < (ascending l).length) (hx : x ∈ l) :
    x ≤ (ascending l)[l.length - 1] := by
  obtain ⟨i, hi, rfl⟩ := List.mem_iff_getElem.mp ((ascending_perm l).mem_iff.mpr hx)
  have hlength := length_ascending l
  exact getElem_ascending_mono (by omega) h

/-- A search for the greatest value ends at or above all of them, and where it
began. -/
theorem le_foldl_max {start x : α} (hx : x ∈ start :: l) : x ≤ l.foldl max start := by
  induction l generalizing start x with
  | nil => exact (List.mem_singleton.mp hx).le
  | cons y l ih =>
    rcases List.mem_cons.mp hx with rfl | hx
    · exact (le_max_left x y).trans (ih List.mem_cons_self)
    · rcases List.mem_cons.mp hx with rfl | hx
      · exact (le_max_right start x).trans (ih List.mem_cons_self)
      · exact ih (List.mem_cons_of_mem _ hx)

section

variable {κ : Type*} [Field κ] [LinearOrder κ] [IsStrictOrderedRing κ] {values : List κ} {bound : κ}

theorem le_average (hne : values ≠ []) (h : ∀ x ∈ values, bound ≤ x) :
    bound ≤ values.sum / values.length := by
  have hpos : (0 : κ) < values.length := by exact_mod_cast List.length_pos_iff.mpr hne
  rw [le_div_iff₀ hpos, mul_comm, ← nsmul_eq_mul]
  exact List.card_nsmul_le_sum values bound h

theorem average_le (hne : values ≠ []) (h : ∀ x ∈ values, x ≤ bound) :
    values.sum / values.length ≤ bound := by
  have hpos : (0 : κ) < values.length := by exact_mod_cast List.length_pos_iff.mpr hne
  rw [div_le_iff₀ hpos, mul_comm, ← nsmul_eq_mul]
  exact List.sum_le_card_nsmul values bound h

end

end OrderStatistic
