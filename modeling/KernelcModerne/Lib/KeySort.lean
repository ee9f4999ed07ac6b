import Mathlib.Data.List.Basic

/-- A sort by a key that leaves open in which order things of one key come. -/
structure KeySort {α : Type*} (key : α → Nat) where
  sort : List α → List α
  perm : ∀ l, (sort l).Perm l
  sorted : ∀ l, (sort l).Pairwise fun a b => key a ≤ key b

namespace KeySort

variable {α : Type*} {key : α → Nat}

private theorem keyLe_trans (key : α → Nat) (a b c : α) (hab : decide (key a ≤ key b) = true)
    (hbc : decide (key b ≤ key c) = true) : decide (key a ≤ key c) = true :=
  decide_eq_true (Nat.le_trans (of_decide_eq_true hab) (of_decide_eq_true hbc))

private theorem keyLe_total (key : α → Nat) (a b : α) :
    (decide (key a ≤ key b) || decide (key b ≤ key a)) = true := by
  simpa using Nat.le_total (key a) (key b)

/-- The sort that keeps things of one key in the order they are in. -/
def stable (key : α → Nat) : KeySort key where
  sort l := l.mergeSort fun a b => key a ≤ key b
  perm l := List.mergeSort_perm l _
  sorted l := (List.pairwise_mergeSort (keyLe_trans key) (keyLe_total key) l).imp of_decide_eq_true

/-- What is sorted already stays in its order. -/
theorem sublist_stable {l sorted : List α} (hsorted : sorted.Pairwise fun a b => key a ≤ key b)
    (hsub : sorted.Sublist l) : sorted.Sublist ((stable key).sort l) :=
  List.sublist_mergeSort (keyLe_trans key) (keyLe_total key) (hsorted.imp decide_eq_true) hsub

variable [DecidableEq α]

/-- The sort that answers `sorted` for the list `l`. -/
def answering (l sorted : List α) (hperm : sorted.Perm l)
    (hsorted : sorted.Pairwise fun a b => key a ≤ key b) : KeySort key where
  sort l' := if l' = l then sorted else (stable key).sort l'
  perm l' := by
    split
    · next heq => exact heq ▸ hperm
    · exact (stable key).perm l'
  sorted l' := by
    split
    · exact hsorted
    · exact (stable key).sorted l'

@[simp] theorem answering_sort (l sorted : List α) (hperm : sorted.Perm l)
    (hsorted : sorted.Pairwise fun a b => key a ≤ key b) :
    (answering l sorted hperm hsorted).sort l = sorted := if_pos rfl

theorem answering_sort_of_ne {l l' sorted : List α} {hperm : sorted.Perm l}
    {hsorted : sorted.Pairwise fun a b => key a ≤ key b} (hne : l' ≠ l) :
    (answering l sorted hperm hsorted).sort l' = (stable key).sort l' := if_neg hne

/-- Some sort puts `a` before `b` where the keys do not say otherwise. -/
theorem exists_sort_before {l : List α} {a b : α} (ha : a ∈ l) (hb : b ∈ l) (hne : a ≠ b)
    (hkey : key a ≤ key b) : ∃ s : KeySort key, [a, b].Sublist (s.sort l) := by
  have hrest : b ∈ l.erase a := (List.mem_erase_of_ne hne.symm).mpr hb
  have hperm : (a :: b :: (l.erase a).erase b).Perm l :=
    ((List.perm_cons_erase hrest).symm.cons a).trans (List.perm_cons_erase ha).symm
  refine ⟨answering l ((stable key).sort (a :: b :: (l.erase a).erase b))
    (((stable key).perm _).trans hperm) ((stable key).sorted _), ?_⟩
  rw [answering_sort]
  refine sublist_stable ?_ (List.Sublist.cons_cons _ (List.Sublist.cons_cons _ (List.nil_sublist _)))
  exact List.pairwise_pair.mpr hkey

end KeySort
