import Mathlib.Data.List.MinMax

/-! A search for the least element by a loop that keeps the best one so far. -/

namespace LeastScan

variable {α β : Type*} [LinearOrder β] (f : α → β)

/-- The body of the loop: a later element has to be strictly better. -/
def better (best a : α) : α := if f a < f best then a else best

/-- The loop over a list that starts with the best one so far. -/
theorem foldl_better_eq_argmin (a : α) (l : List α) :
    List.argmin f (a :: l) = some (l.foldl (better f) a) := by
  have hstep (best b : α) :
      List.argAux (fun b c => f b < f c) (some best) b = some (better f best b) := (apply_ite some _ _ _).symm
  have hloop (best : α) : l.foldl (List.argAux fun b c => f b < f c) (some best) =
      some (l.foldl (better f) best) := by
    induction l generalizing best with
    | nil => rfl
    | cons b l ih => rw [List.foldl_cons, hstep, ih, List.foldl_cons]
  exact hloop a

variable {f}

theorem foldl_better_mem (a : α) (l : List α) : l.foldl (better f) a ∈ a :: l :=
  List.argmin_mem (foldl_better_eq_argmin f a l)

theorem foldl_better_le {a b : α} {l : List α} (h : b ∈ a :: l) : f (l.foldl (better f) a) ≤ f b :=
  List.le_of_mem_argmin h (foldl_better_eq_argmin f a l)

end LeastScan
