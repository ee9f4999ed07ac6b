import Mathlib.Algebra.GroupWithZero.Nat
import Mathlib.Data.List.Range
import Mathlib.Logic.Function.Basic

/-! Windows over a cyclic store. -/

namespace Ring

variable {α : Type*} {n : Nat} [NeZero n]

/-- The `len` cells from position `first` on, where positions are taken around
the store. -/
def window (cells : Fin n → α) (first len : Nat) : List α :=
  (List.range len).map fun k => cells (Fin.ofNat n (first + k))

@[simp] theorem length_window (cells : Fin n → α) (first len : Nat) :
    (window cells first len).length = len := by
  rw [window, List.length_map, List.length_range]

theorem ofNat_congr {i j : Nat} (h : i % n = j % n) : Fin.ofNat n i = Fin.ofNat n j :=
  Fin.ext h

/-- Only the position modulo the size of the store counts. -/
theorem window_congr {first first' : Nat} (h : first % n = first' % n) (cells : Fin n → α) (len : Nat) :
    window cells first len = window cells first' len := by
  unfold window
  apply List.map_congr_left
  intro k _
  have hk : Fin.ofNat n (first + k) = Fin.ofNat n (first' + k) := by
    apply ofNat_congr
    rw [Nat.add_mod, h, ← Nat.add_mod]
  rw [hk]

theorem window_succ_left (cells : Fin n → α) (first len : Nat) :
    window cells first (len + 1) = cells (Fin.ofNat n first) :: window cells (first + 1) len := by
  unfold window
  rw [List.range_succ_eq_map, List.map_cons, List.map_map, Nat.add_zero]
  congr 1
  apply List.map_congr_left
  intro k _
  rw [Function.comp_apply, Nat.succ_eq_one_add, ← Nat.add_assoc]

theorem window_succ_right (cells : Fin n → α) (first len : Nat) :
    window cells first (len + 1) = window cells first len ++ [cells (Fin.ofNat n (first + len))] := by
  unfold window
  rw [List.range_succ, List.map_append, List.map_singleton]

/-- Two positions less than a whole turn apart are different cells. -/
theorem ofNat_ne {i j : Nat} (hlt : i < j) (hturn : j < i + n) : Fin.ofNat n i ≠ Fin.ofNat n j := by
  intro heq
  have hmod : i % n = j % n := congrArg Fin.val heq
  have hdvd : n ∣ j - i := Nat.dvd_of_mod_eq_zero (Nat.sub_mod_eq_zero_of_mod_eq hmod.symm)
  have hle := Nat.le_of_dvd (by omega) hdvd
  omega

/-- Writing the cell after a window that leaves one free extends the window. -/
theorem window_update (cells : Fin n → α) (first : Nat) {len : Nat} (hlen : len < n) (a : α) :
    window (Function.update cells (Fin.ofNat n (first + len)) a) first (len + 1) =
      window cells first len ++ [a] := by
  rw [window_succ_right, Function.update_self]
  congr 1
  unfold window
  apply List.map_congr_left
  intro k hk
  have hlt : k < len := List.mem_range.mp hk
  exact Function.update_of_ne (ofNat_ne (by omega) (by omega)) _ _

end Ring
