import Mathlib.Algebra.GroupWithZero.Nat
import Mathlib.Algebra.Order.BigOperators.Group.List
import Mathlib.Algebra.Order.Group.Nat

/-! Lists split at an element, and joined by it. -/

namespace Splitting

variable {α : Type*} {a c : α} {parts parts' : List (List α)}

theorem notMem_of_mem_splitOn [DecidableEq α] {xs part : List α} (h : part ∈ xs.splitOn a) : a ∉ part := by
  induction xs generalizing part with
  | nil =>
    rw [List.splitOn_nil, List.mem_singleton] at h
    rw [h]
    exact List.not_mem_nil
  | cons x xs ih =>
    rw [List.splitOn_cons_eq_if_modifyHead] at h
    split at h
    · rw [List.mem_cons] at h
      cases h with
      | inl hempty =>
        rw [hempty]
        exact List.not_mem_nil
      | inr hlater => exact ih hlater
    · next hne =>
      obtain ⟨first, rest, hsplit⟩ := List.exists_cons_of_ne_nil (List.splitOn_ne_nil a xs)
      rw [hsplit] at ih
      rw [hsplit, List.modifyHead_cons, List.mem_cons] at h
      cases h with
      | inl hfirst =>
        rw [hfirst, List.mem_cons, not_or]
        exact ⟨fun heq => hne (by rw [heq, beq_self_eq_true]), ih List.mem_cons_self⟩
      | inr hrest => exact ih (List.mem_cons_of_mem _ hrest)

/-- Joined, each part counts with the element behind it, but for the last. -/
theorem length_intercalate (h : parts ≠ []) :
    ([a].intercalate parts).length + 1 = (parts.map fun part => part.length + 1).sum := by
  induction parts with
  | nil => exact absurd rfl h
  | cons part parts ih =>
    cases parts with
    | nil => simp
    | cons next rest =>
      rw [List.intercalate_cons_cons, List.map_cons, List.sum_cons, ← ih (List.cons_ne_nil _ _)]
      simp only [List.length_append, List.length_singleton]
      omega

theorem mem_intercalate (h : c ∈ [a].intercalate parts) : c = a ∨ ∃ part ∈ parts, c ∈ part := by
  induction parts with
  | nil => simp at h
  | cons part parts ih =>
    cases parts with
    | nil => exact .inr ⟨part, List.mem_cons_self, by simpa using h⟩
    | cons next rest =>
      rw [List.intercalate_cons_cons, List.append_assoc, List.mem_append, List.mem_append,
        List.mem_singleton] at h
      obtain hpart | ha | hrest := h
      · exact .inr ⟨part, List.mem_cons_self, hpart⟩
      · exact .inl ha
      · exact (ih hrest).imp_right fun ⟨found, hmem, hc⟩ => ⟨found, List.mem_cons_of_mem _ hmem, hc⟩

theorem mem_intercalate_of_mem {part : List α} (hpart : part ∈ parts) (h : c ∈ part) :
    c ∈ [a].intercalate parts := by
  induction parts with
  | nil => cases hpart
  | cons first parts ih =>
    cases parts with
    | nil =>
      rw [List.mem_singleton] at hpart
      simpa [← hpart] using h
    | cons next rest =>
      rw [List.intercalate_cons_cons, List.append_assoc, List.mem_append, List.mem_append]
      cases List.mem_cons.mp hpart with
      | inl heq => exact .inl (heq ▸ h)
      | inr hrest => exact .inr (.inr (ih hrest))

theorem mem_of_mem_splitOn [DecidableEq α] {xs part : List α} (hpart : part ∈ xs.splitOn a) (h : c ∈ part) :
    c ∈ xs := by
  have hjoined : [a].intercalate (xs.splitOn a) = xs := List.intercalate_splitOn a
  exact hjoined ▸ mem_intercalate_of_mem hpart h

/-- Some of the parts, joined, are no longer than all of them. -/
theorem length_intercalate_le (h : parts.Sublist parts') :
    ([a].intercalate parts).length ≤ ([a].intercalate parts').length := by
  by_cases hempty : parts = []
  · rw [hempty]
    exact Nat.zero_le _
  · have hempty' : parts' ≠ [] := by
      rintro rfl
      exact hempty (List.sublist_nil.mp h)
    have hsum : (parts.map fun part => part.length + 1).sum ≤ (parts'.map fun part => part.length + 1).sum :=
      (h.map _).sum_le_sum fun _ _ => Nat.zero_le _
    rw [← length_intercalate hempty (a := a), ← length_intercalate hempty' (a := a)] at hsum
    exact Nat.le_of_succ_le_succ hsum

/-- A joined list starts like its first part, where that is not empty. -/
theorem head?_intercalate {part : List α} (h : part ≠ []) :
    ([a].intercalate (part :: parts)).head? = part.head? := by
  cases parts with
  | nil => simp
  | cons next rest =>
    rw [List.intercalate_cons_cons, List.append_assoc, List.head?_append_of_ne_nil _ h]

end Splitting
