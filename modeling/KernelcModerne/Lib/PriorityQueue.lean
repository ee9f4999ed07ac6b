import Mathlib.Data.List.Perm.Basic
import Mathlib.Data.List.Sort

/-- An implementation of a priority queue over a vector: `pop` answers the top
and the rest. Which element is the top, and how the vector is laid out, is left
open. -/
structure PriorityQueue (α : Type*) where
  push : List α → α → List α
  pop : List α → Option (α × List α)
  push_perm : ∀ queue x, (push queue x).Perm (x :: queue)
  pop_nil : pop [] = none
  pop_cons : ∀ x queue, ∃ top rest, pop (x :: queue) = some (top, rest) ∧ (x :: queue).Perm (top :: rest)

namespace PriorityQueue

variable {α : Type*}

/-- The queue of the elements `xs`, pushed in order. -/
def ofList (q : PriorityQueue α) (xs : List α) : List α := xs.foldl q.push []

theorem foldl_push_perm (q : PriorityQueue α) (xs queue : List α) :
    (xs.foldl q.push queue).Perm (xs ++ queue) := by
  induction xs generalizing queue with
  | nil => exact .refl _
  | cons x xs ih =>
    have hpushed := (q.push_perm queue x).append_left xs
    exact (ih (q.push queue x)).trans (hpushed.trans List.perm_middle)

theorem ofList_perm (q : PriorityQueue α) (xs : List α) : (q.ofList xs).Perm xs := by
  have hperm := q.foldl_push_perm xs []
  rwa [List.append_nil] at hperm

theorem pop_eq_none_iff (q : PriorityQueue α) {queue : List α} : q.pop queue = none ↔ queue = [] := by
  cases queue with
  | nil => exact iff_of_true q.pop_nil rfl
  | cons x queue =>
    obtain ⟨top, rest, hpop, _⟩ := q.pop_cons x queue
    simp [hpop]

theorem perm_of_pop (q : PriorityQueue α) {queue rest : List α} {top : α}
    (hpop : q.pop queue = some (top, rest)) : queue.Perm (top :: rest) := by
  cases queue with
  | nil => simp [q.pop_nil] at hpop
  | cons x queue =>
    obtain ⟨top', rest', hpop', hperm⟩ := q.pop_cons x queue
    rw [hpop', Option.some.injEq, Prod.mk.injEq] at hpop
    rwa [hpop.1, hpop.2] at hperm

/-- The queue that keeps its elements in order, the top first. -/
def sorted (le : α → α → Prop) [DecidableRel le] : PriorityQueue α where
  push queue x := queue.orderedInsert le x
  pop
    | [] => none
    | top :: rest => some (top, rest)
  push_perm queue x := List.perm_orderedInsert le x queue
  pop_nil := rfl
  pop_cons top rest := ⟨top, rest, rfl, .refl _⟩

end PriorityQueue
