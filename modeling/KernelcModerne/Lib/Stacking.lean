import Mathlib.Data.List.Nodup

/-! Things in a stack, the topmost last, that are brought to the top or sent to
the bottom one at a time. -/

namespace Stacking

variable {α : Type*} {p : α → Bool} {a : α}

/-- The last of the list that satisfies `p`. -/
def topmost (p : α → Bool) (stack : List α) : Option α := (stack.filter p).getLast?

theorem topmost_eq_find? (p : α → Bool) (stack : List α) : topmost p stack = stack.reverse.find? p := by
  rw [topmost, ← List.head?_filter, List.filter_reverse, List.head?_reverse]

theorem topmost_mem {stack : List α} (h : topmost p stack = some a) : a ∈ stack ∧ p a := by
  have hmem := List.mem_of_getLast? h
  exact List.mem_filter.mp hmem

/-- What is on top stays so among those with `q` exactly where it is one of them. -/
theorem topmost_filter_iff {stack : List α} (p q : α → Bool) :
    topmost p (stack.filter q) = topmost p stack ↔ ∀ a, topmost p stack = some a → q a := by
  constructor
  · intro hsame a htop
    have hmem := (topmost_mem (hsame.trans htop)).1
    exact (List.mem_filter.mp hmem).2
  · intro hq
    cases htop : topmost p stack with
    | none =>
      rw [topmost, List.getLast?_eq_none_iff, List.filter_eq_nil_iff] at htop ⊢
      exact fun a ha => htop a (List.mem_filter.mp ha).1
    | some a =>
      obtain ⟨front, hfront⟩ := List.getLast?_eq_some_iff.mp htop
      rw [topmost, List.filter_filter]
      simp only [Bool.and_comm (p _)]
      rw [← List.filter_filter, hfront, List.filter_append, List.filter_cons_of_pos (hq a htop), List.filter_nil,
        List.getLast?_concat]

theorem topmost_concat (p : α → Bool) (stack : List α) (h : p a) : topmost p (stack ++ [a]) = some a := by
  rw [topmost, List.filter_append, List.filter_cons_of_pos h, List.filter_nil, List.getLast?_concat]

variable [DecidableEq α] {stack : List α}

/-- `a` at the end of the list, if it is in it. -/
def raise (a : α) (stack : List α) : List α :=
  if a ∈ stack then stack.erase a ++ [a] else stack

/-- `a` at the start of the list, if it is in it. -/
def lower (a : α) (stack : List α) : List α :=
  if a ∈ stack then a :: stack.erase a else stack

theorem raise_perm (a : α) (stack : List α) : (raise a stack).Perm stack := by
  unfold raise
  split
  · next h => exact List.perm_append_comm.trans (List.perm_cons_erase h).symm
  · exact .refl _

theorem lower_perm (a : α) (stack : List α) : (lower a stack).Perm stack := by
  unfold lower
  split
  · next h => exact (List.perm_cons_erase h).symm
  · exact .refl _

@[simp] theorem mem_raise {b : α} : b ∈ raise a stack ↔ b ∈ stack := (raise_perm a stack).mem_iff

theorem raise_of_notMem (h : a ∉ stack) : raise a stack = stack := if_neg h

theorem lower_of_notMem (h : a ∉ stack) : lower a stack = stack := if_neg h

theorem getLast?_raise (h : a ∈ stack) : (raise a stack).getLast? = some a := by
  rw [raise, if_pos h, List.getLast?_concat]

theorem head?_lower (h : a ∈ stack) : (lower a stack).head? = some a := by
  rw [lower, if_pos h, List.head?_cons]

private theorem filter_erase_ne (a : α) (stack : List α) :
    (stack.erase a).filter (· ≠ a) = stack.filter (· ≠ a) := by
  induction stack with
  | nil => rfl
  | cons b stack ih =>
    by_cases hb : b = a
    · rw [hb, List.erase_cons_head, List.filter_cons_of_neg (by simp)]
    · rw [List.erase_cons_tail (by simpa using hb), List.filter_cons_of_pos (by simpa using hb),
        List.filter_cons_of_pos (by simpa using hb), ih]

/-- The others stay in the order they are in. -/
theorem filter_raise (a : α) (stack : List α) :
    (raise a stack).filter (· ≠ a) = stack.filter (· ≠ a) := by
  unfold raise
  split
  · rw [List.filter_append, filter_erase_ne, List.filter_cons_of_neg (by simp), List.filter_nil,
      List.append_nil]
  · rfl

theorem filter_lower (a : α) (stack : List α) :
    (lower a stack).filter (· ≠ a) = stack.filter (· ≠ a) := by
  unfold lower
  split
  · rw [List.filter_cons_of_neg (by simp), filter_erase_ne]
  · rfl

/-- What is on top stays when it is raised again. -/
theorem raise_raise (h : stack.Nodup) (a : α) : raise a (raise a stack) = raise a stack := by
  by_cases ha : a ∈ stack
  · have hraised : raise a stack = stack.erase a ++ [a] := if_pos ha
    have hmem : a ∈ stack.erase a ++ [a] := List.mem_append_right _ (List.mem_singleton_self a)
    rw [hraised, raise, if_pos hmem, List.erase_append_right _ h.not_mem_erase, List.erase_cons_head,
      List.append_nil]
  · rw [raise_of_notMem ha, raise_of_notMem ha]

/-- The topmost hit is still that when it has been raised. -/
theorem topmost_raise (h : topmost p stack = some a) : topmost p (raise a stack) = some a := by
  obtain ⟨hmem, hp⟩ := topmost_mem h
  rw [topmost, raise, if_pos hmem, List.filter_append, List.filter_cons_of_pos hp, List.filter_nil,
    List.getLast?_concat]

end Stacking
