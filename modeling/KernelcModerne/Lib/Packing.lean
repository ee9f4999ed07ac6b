import Mathlib.Data.List.Perm.Basic
import KernelcModerne.Lib.FirstFit

/-- What an allocator of extents stands for: the extents in use, not empty,
with no cell in common, all below `total`. -/
structure Packing (total : Nat) where
  live : List Extent
  nonempty : ∀ e ∈ live, 0 < e.len
  inside : ∀ e ∈ live, e.stop ≤ total
  apart : live.Pairwise Extent.Apart

namespace Packing

variable {total : Nat}

/-- Cell `i` belongs to an extent in use. -/
def Covers (p : Packing total) (i : Nat) : Prop := ∃ e ∈ p.live, i ∈ e.cells

instance (p : Packing total) (i : Nat) : Decidable (p.Covers i) :=
  inferInstanceAs (Decidable (∃ e ∈ p.live, i ∈ e.cells))

/-- The number of cells below `total` that no extent covers. -/
def freeCount (p : Packing total) : Nat := ((Finset.range total).filter fun i => ¬ p.Covers i).card

def empty (total : Nat) : Packing total where
  live := []
  nonempty := by simp
  inside := by simp
  apart := .nil

@[simp] theorem not_covers_empty (i : Nat) : ¬ (empty total).Covers i := by
  simp [Covers, empty]

@[simp] theorem freeCount_empty : (empty total).freeCount = total := by
  simp [freeCount]

/-- Takes an extent into use. -/
def place (p : Packing total) (e : Extent) (hlen : 0 < e.len) (hinside : e.stop ≤ total)
    (hapart : ∀ e' ∈ p.live, e.Apart e') : Packing total where
  live := e :: p.live
  nonempty := List.forall_mem_cons.mpr ⟨hlen, p.nonempty⟩
  inside := List.forall_mem_cons.mpr ⟨hinside, p.inside⟩
  apart := List.pairwise_cons.mpr ⟨hapart, p.apart⟩

/-- Gives an extent back. -/
def release (p : Packing total) (e : Extent) : Packing total where
  live := p.live.erase e
  nonempty e' he' := p.nonempty e' (List.mem_of_mem_erase he')
  inside e' he' := p.inside e' (List.mem_of_mem_erase he')
  apart := p.apart.sublist List.erase_sublist

theorem apart_of_mem_release {p : Packing total} {e : Extent} (he : e ∈ p.live) :
    ∀ e' ∈ (p.release e).live, e.Apart e' := by
  have hperm := List.perm_cons_erase he
  have hpair := (hperm.pairwise_iff fun h => Extent.Apart.symm h).mp p.apart
  exact (List.pairwise_cons.mp hpair).1

section Place

variable (p : Packing total) (e : Extent) (hlen : 0 < e.len) (hinside : e.stop ≤ total)
  (hapart : ∀ e' ∈ p.live, e.Apart e')

theorem covers_place (i : Nat) :
    (p.place e hlen hinside hapart).Covers i ↔ i ∈ e.cells ∨ p.Covers i := by
  simp [Covers, place]

/-- The cells of a placed extent were free before. -/
theorem not_covers_of_apart {p : Packing total} {e : Extent}
    (hapart : ∀ e' ∈ p.live, e.Apart e') {i : Nat} (hi : i ∈ e.cells) : ¬ p.Covers i := by
  rintro ⟨e', he', hi'⟩
  exact Finset.disjoint_left.mp (hapart e' he') hi hi'

private theorem filter_eq_union (p : Packing total) {e : Extent} (hinside : e.stop ≤ total)
    (hfree : ∀ i ∈ e.cells, ¬ p.Covers i) :
    (Finset.range total).filter (fun i => ¬ p.Covers i) =
      (Finset.range total).filter (fun i => ¬ (i ∈ e.cells ∨ p.Covers i)) ∪ e.cells := by
  ext i
  simp only [Finset.mem_filter, Finset.mem_range, Finset.mem_union]
  constructor
  · rintro ⟨hi, hcov⟩
    by_cases hcell : i ∈ e.cells
    · exact .inr hcell
    · exact .inl ⟨hi, by simp [hcell, hcov]⟩
  · rintro (⟨hi, hcov⟩ | hcell)
    · exact ⟨hi, fun h => hcov (.inr h)⟩
    · have hlt := (Extent.mem_cells.mp hcell).2
      exact ⟨by omega, hfree i hcell⟩

/-- Placing an extent uses up as many free cells as it is long. -/
theorem freeCount_place :
    p.freeCount = (p.place e hlen hinside hapart).freeCount + e.len := by
  unfold freeCount
  simp only [covers_place]
  rw [filter_eq_union p hinside fun i hi => not_covers_of_apart hapart hi,
    Finset.card_union_of_disjoint, Extent.card_cells]
  rw [Finset.disjoint_left]
  intro i hi hcell
  exact (Finset.mem_filter.mp hi).2 (.inl hcell)

end Place

theorem covers_release {p : Packing total} {e : Extent} (he : e ∈ p.live) {i : Nat} :
    (p.release e).Covers i ↔ p.Covers i ∧ i ∉ e.cells := by
  constructor
  · rintro ⟨e', he', hi⟩
    refine ⟨⟨e', List.mem_of_mem_erase he', hi⟩, ?_⟩
    exact fun hcell => Finset.disjoint_left.mp (apart_of_mem_release he e' he') hcell hi
  · rintro ⟨⟨e', he', hi⟩, hcell⟩
    have hne : e' ≠ e := by
      rintro rfl
      exact hcell hi
    exact ⟨e', (List.mem_erase_of_ne hne).mpr he', hi⟩

/-- Giving an extent back frees as many cells as it is long. -/
theorem freeCount_release {p : Packing total} {e : Extent} (he : e ∈ p.live) :
    (p.release e).freeCount = p.freeCount + e.len := by
  have hback := (p.release e).freeCount_place e (p.nonempty e he) (p.inside e he)
    (apart_of_mem_release he)
  rw [hback]
  congr 1
  unfold freeCount
  congr 1
  ext i
  simp only [Finset.mem_filter, covers_place, covers_release he]
  by_cases hcell : i ∈ e.cells
  · have hcov : p.Covers i := ⟨e, he, hcell⟩
    simp [hcell, hcov]
  · simp [hcell]

/-- An occupancy map marks exactly the covered cells. -/
def RepresentedBy (p : Packing total) (used : Nat → Bool) : Prop :=
  ∀ i < total, used i = true ↔ p.Covers i

/-- A free extent of the map can be placed. -/
theorem RepresentedBy.apart_of_free {p : Packing total} {used : Nat → Bool}
    (h : p.RepresentedBy used) {e : Extent} (hfree : e.Free used total) :
    ∀ e' ∈ p.live, e.Apart e' := by
  intro e' he'
  rw [Extent.Apart, Finset.disjoint_left]
  intro i hi hi'
  have hlt := (Extent.mem_cells.mp hi).2
  have hclear := hfree.2 i hi
  rw [(h i (hlt.trans_le hfree.1)).mpr ⟨e', he', hi'⟩] at hclear
  cases hclear

/-- Marking the cells of a placed extent. -/
theorem RepresentedBy.place {p : Packing total} {used marked : Nat → Bool} (h : p.RepresentedBy used)
    {e : Extent} (hlen : 0 < e.len) (hinside : e.stop ≤ total) (hapart : ∀ e' ∈ p.live, e.Apart e')
    (hmarked : ∀ i, marked i = if i ∈ e.cells then true else used i) :
    (p.place e hlen hinside hapart).RepresentedBy marked := by
  intro i hi
  rw [hmarked, covers_place, ← h i hi]
  by_cases hcell : i ∈ e.cells
  · simp [hcell]
  · simp [hcell]

/-- Clearing the cells of an extent given back. -/
theorem RepresentedBy.release {p : Packing total} {used cleared : Nat → Bool} (h : p.RepresentedBy used)
    {e : Extent} (he : e ∈ p.live) (hcleared : ∀ i, cleared i = if i ∈ e.cells then false else used i) :
    (p.release e).RepresentedBy cleared := by
  intro i hi
  rw [hcleared, covers_release he, ← h i hi]
  by_cases hcell : i ∈ e.cells
  · simp [hcell]
  · simp [hcell]

/-- The packing of a map: each cell in use is an extent of its own. -/
def ofMap (used : Nat → Bool) (total : Nat) : Packing total where
  live := ((List.range total).filter used).map fun i => ⟨i, 1⟩
  nonempty e he := by
    obtain ⟨i, _, rfl⟩ := List.mem_map.mp he
    exact Nat.one_pos
  inside e he := by
    obtain ⟨i, hi, rfl⟩ := List.mem_map.mp he
    exact List.mem_range.mp (List.mem_of_mem_filter hi)
  apart := by
    rw [List.pairwise_map]
    refine (List.nodup_range.filter used).imp fun hne => ?_
    rw [Extent.apart_iff]
    simp only [Extent.stop_mk]
    omega

theorem representedBy_ofMap (used : Nat → Bool) (total : Nat) : (ofMap used total).RepresentedBy used := by
  intro i hi
  constructor
  · intro hused
    refine ⟨⟨i, 1⟩, List.mem_map.mpr ⟨i, List.mem_filter.mpr ⟨List.mem_range.mpr hi, hused⟩, rfl⟩, ?_⟩
    simp
  · rintro ⟨e, he, hcell⟩
    obtain ⟨j, hj, rfl⟩ := List.mem_map.mp he
    obtain rfl : i = j := by
      simp only [Extent.mem_cells, Extent.stop_mk] at hcell
      omega
    exact (List.mem_filter.mp hj).2

/-- The free cells of the map are counted by `freeCount`. -/
theorem RepresentedBy.card_clear {p : Packing total} {used : Nat → Bool}
    (h : p.RepresentedBy used) :
    ((Finset.range total).filter fun i => used i = false).card = p.freeCount := by
  unfold freeCount
  congr 1
  ext i
  simp only [Finset.mem_filter, Finset.mem_range]
  refine and_congr_right fun hi => ?_
  rw [← h i hi, Bool.not_eq_true]

/-- Marking a free extent uses up as many cells of the map as it is long. -/
theorem card_clear_marked {used marked : Nat → Bool} {e : Extent} (hfree : e.Free used total) (hlen : 0 < e.len)
    (hmarked : ∀ i, marked i = if i ∈ e.cells then true else used i) :
    ((Finset.range total).filter fun i => used i = false).card =
      ((Finset.range total).filter fun i => marked i = false).card + e.len := by
  have hmap := representedBy_ofMap used total
  have hapart := hmap.apart_of_free hfree
  rw [hmap.card_clear, (hmap.place hlen hfree.1 hapart hmarked).card_clear]
  exact freeCount_place _ e hlen hfree.1 hapart

end Packing
