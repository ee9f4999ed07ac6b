import Mathlib.Algebra.GroupWithZero.Nat
import Mathlib.Order.Interval.Finset.Nat
import Mathlib.Order.Interval.Set.Disjoint

/-- A half-open range of cells: `len` of them from `start` on. -/
@[ext] structure Extent where
  start : Nat
  len : Nat
  deriving DecidableEq, Repr

namespace Extent

def stop (e : Extent) : Nat := e.start + e.len

/-- The cells of an extent. -/
def cells (e : Extent) : Finset Nat := Finset.Ico e.start e.stop

@[simp] theorem stop_mk (start len : Nat) : (Extent.mk start len).stop = start + len := rfl

@[simp] theorem mem_cells {e : Extent} {i : Nat} : i ∈ e.cells ↔ e.start ≤ i ∧ i < e.stop := by
  simp [cells]

@[simp] theorem card_cells (e : Extent) : e.cells.card = e.len := by
  simp [cells, stop]

/-- Two extents have no cell in common. -/
def Apart (a b : Extent) : Prop := Disjoint a.cells b.cells

theorem apart_iff {a b : Extent} :
    a.Apart b ↔ a.len = 0 ∨ b.len = 0 ∨ a.stop ≤ b.start ∨ b.stop ≤ a.start := by
  simp only [Apart, Finset.disjoint_left, mem_cells]
  unfold stop
  constructor
  · intro h
    by_contra hnot
    have := @h (max a.start b.start)
    omega
  · intro h i
    omega

instance (a b : Extent) : Decidable (a.Apart b) := decidable_of_iff' _ apart_iff

theorem Apart.symm {a b : Extent} (h : a.Apart b) : b.Apart a := Disjoint.symm h

/-- The cells of a list of extents. -/
def covered (extents : List Extent) : Finset Nat :=
  extents.foldr (fun e cells => e.cells ∪ cells) ∅

theorem mem_covered {extents : List Extent} {i : Nat} :
    i ∈ covered extents ↔ ∃ e ∈ extents, i ∈ e.cells := by
  induction extents with
  | nil => simp [covered]
  | cons e extents ih =>
    have hcons : covered (e :: extents) = e.cells ∪ covered extents := rfl
    rw [hcons, Finset.mem_union, ih, List.exists_mem_cons_iff]

theorem card_covered {extents : List Extent} (h : extents.Pairwise Apart) :
    (covered extents).card = (extents.map len).sum := by
  induction extents with
  | nil => rfl
  | cons e extents ih =>
    obtain ⟨hhead, hrest⟩ := List.pairwise_cons.mp h
    have hdisjoint : Disjoint e.cells (covered extents) := by
      rw [Finset.disjoint_left]
      intro i hi hcovered
      obtain ⟨e', he', hi'⟩ := mem_covered.mp hcovered
      exact Finset.disjoint_left.mp (hhead e' he') hi hi'
    have hcons : covered (e :: extents) = e.cells ∪ covered extents := rfl
    rw [hcons, Finset.card_union_of_disjoint hdisjoint, card_cells, ih hrest, List.map_cons, List.sum_cons]

/-- Extents apart from each other are no longer than the range that they lie
in. -/
theorem sum_len_le {extents : List Extent} (h : extents.Pairwise Apart) {low high : Nat}
    (hlow : ∀ e ∈ extents, low ≤ e.start) (hhigh : ∀ e ∈ extents, e.stop ≤ high) :
    (extents.map len).sum ≤ high - low := by
  have hsubset : covered extents ⊆ Finset.Ico low high := by
    intro i hi
    obtain ⟨e, he, hcell⟩ := mem_covered.mp hi
    rw [mem_cells] at hcell
    exact Finset.mem_Ico.mpr ⟨(hlow e he).trans hcell.1, hcell.2.trans_le (hhigh e he)⟩
  have hcard := Finset.card_le_card hsubset
  rwa [card_covered h, Nat.card_Ico] at hcard

end Extent
