import Mathlib.Data.Tree.Basic
import Mathlib.Order.Defs.LinearOrder
import Mathlib.Order.Lattice

/-! Binary search trees with keys computed from their values. -/

namespace SearchTree

variable {α κ : Type*} [LinearOrder κ]

def Mem (x : α) : BinaryTree α → Prop
  | .nil => False
  | .node a left right => x = a ∨ Mem x left ∨ Mem x right

/-- At every node, what is on its left comes before it and what is on its right
after it. -/
def Ordered (key : α → κ) : BinaryTree α → Prop
  | .nil => True
  | .node a left right =>
    (∀ x, Mem x left → key x ≤ key a) ∧ (∀ x, Mem x right → key a ≤ key x) ∧
      Ordered key left ∧ Ordered key right

/-- The value at the end of the way to the left. -/
def leftmost : BinaryTree α → Option α
  | .nil => none
  | .node a left _ => (leftmost left).or (some a)

theorem leftmost_map {β : Type*} (f : α → β) (t : BinaryTree α) :
    leftmost (t.map f) = (leftmost t).map f := by
  induction t with
  | nil => rfl
  | node a left right ih _ =>
    rw [BinaryTree.map, leftmost, leftmost, ih, Option.map_or, Option.map_some]

theorem mem_map {β : Type*} (f : α → β) (t : BinaryTree α) (y : β) :
    Mem y (t.map f) ↔ ∃ x, Mem x t ∧ f x = y := by
  induction t with
  | nil => simp [BinaryTree.map, Mem]
  | node a left right ihl ihr =>
    simp only [BinaryTree.map, Mem, ihl, ihr]
    grind

theorem leftmost_node_cases {a first : α} {left right : BinaryTree α}
    (h : leftmost (.node a left right) = some first) :
    leftmost left = some first ∨ leftmost left = none ∧ first = a := by
  cases hleft : leftmost left with
  | none =>
    rw [leftmost, hleft, Option.none_or, Option.some.injEq] at h
    exact .inr ⟨rfl, h.symm⟩
  | some least =>
    rw [leftmost, hleft, Option.some_or] at h
    exact .inl h

theorem mem_of_leftmost {t : BinaryTree α} {first : α} (h : leftmost t = some first) : Mem first t := by
  induction t generalizing first with
  | nil => simp [leftmost] at h
  | node a left right ih _ =>
    cases leftmost_node_cases h with
    | inl hleft => exact .inr (.inl (ih hleft))
    | inr hroot => exact .inl hroot.2

theorem not_mem_of_leftmost_eq_none {t : BinaryTree α} (h : leftmost t = none) (x : α) : ¬ Mem x t := by
  cases t with
  | nil => exact not_false
  | node a left right => simp [leftmost] at h

/-- The leftmost value of a search tree has the least key. -/
theorem Ordered.leftmost_le {key : α → κ} {t : BinaryTree α} (h : Ordered key t) {first x : α}
    (hfirst : leftmost t = some first) (hx : Mem x t) : key first ≤ key x := by
  induction t generalizing first x with
  | nil => exact hx.elim
  | node a left right ih _ =>
    obtain ⟨hleft, hright, hordered, _⟩ := h
    have hroot : key first ≤ key a := by
      cases leftmost_node_cases hfirst with
      | inl hleast => exact hleft first (mem_of_leftmost hleast)
      | inr hnone => rw [hnone.2]
    rcases hx with rfl | hx | hx
    · exact hroot
    · cases leftmost_node_cases hfirst with
      | inl hleast => exact ih hordered hleast hx
      | inr hnone => exact absurd hx (not_mem_of_leftmost_eq_none hnone.1 x)
    · exact le_trans hroot (hright x hx)

end SearchTree
