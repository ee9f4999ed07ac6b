import Mathlib.Algebra.GroupWithZero.Nat
import KernelcModerne.Lib.Extent

/-! Sliding compaction: extents are moved down in the order of their addresses,
each to the end of the one before it. -/

namespace Extent

/-- The extents one behind the other, from `dest` on. -/
def slide : Nat → List Extent → List Extent
  | _, [] => []
  | dest, e :: rest => ⟨dest, e.len⟩ :: slide (dest + e.len) rest

/-- The extents lie from `dest` on and one above the other, those without a cell
anywhere. -/
structure Slidable (dest : Nat) (extents : List Extent) : Prop where
  above : ∀ e ∈ extents, e.len = 0 ∨ dest ≤ e.start
  ordered : extents.Pairwise fun a b => a.len = 0 ∨ b.len = 0 ∨ a.stop ≤ b.start

variable {dest : Nat} {e : Extent} {extents rest : List Extent}

theorem Slidable.of_sorted (habove : ∀ e ∈ extents, dest ≤ e.start) (hapart : extents.Pairwise Apart)
    (hsorted : extents.Pairwise fun a b => a.start ≤ b.start) : Slidable dest extents where
  above e he := .inr (habove e he)
  ordered := (hapart.and hsorted).imp fun h => by
    have hcases := apart_iff.mp h.1
    have hle := h.2
    unfold stop at *
    omega

/-- What is still to be moved lies above the extent that has been moved. -/
theorem Slidable.tail (h : Slidable dest (e :: rest)) : Slidable (dest + e.len) rest := by
  obtain ⟨hhead, hrest⟩ := List.pairwise_cons.mp h.ordered
  refine ⟨fun other hother => ?_, hrest⟩
  have hfirst := h.above e List.mem_cons_self
  have hlater := h.above other (List.mem_cons_of_mem _ hother)
  have hover := hhead other hother
  unfold stop at hover
  omega

@[simp] theorem map_len_slide (dest : Nat) (extents : List Extent) :
    (slide dest extents).map len = extents.map len := by
  induction extents generalizing dest with
  | nil => rfl
  | cons e rest ih => exact congrArg (e.len :: ·) (ih _)

theorem le_start_of_mem_slide (he : e ∈ slide dest extents) : dest ≤ e.start := by
  induction extents generalizing dest with
  | nil => exact absurd he List.not_mem_nil
  | cons first rest ih =>
    cases List.mem_cons.mp he with
    | inl heq => exact heq ▸ le_refl dest
    | inr hmem => exact (Nat.le_add_right _ _).trans (ih hmem)

/-- The extents moved follow each other. -/
theorem slide_ordered (dest : Nat) (extents : List Extent) :
    (slide dest extents).Pairwise fun a b => a.stop ≤ b.start := by
  induction extents generalizing dest with
  | nil => exact .nil
  | cons e rest ih => exact List.pairwise_cons.mpr ⟨fun other hother => le_start_of_mem_slide hother, ih _⟩

/-- An extent moved starts where those before it end. -/
theorem start_of_slide_eq {before after : List Extent} (h : slide dest extents = before ++ e :: after) :
    e.start = dest + (before.map len).sum := by
  induction extents generalizing dest before with
  | nil => simp [slide] at h
  | cons first rest ih =>
    rw [slide] at h
    cases before with
    | nil =>
      obtain ⟨rfl, _⟩ := List.cons.inj h
      rfl
    | cons other before =>
      obtain ⟨rfl, hrest⟩ := List.cons.inj h
      rw [ih hrest, List.map_cons, List.sum_cons, Nat.add_assoc]

section Memory

variable {β : Type*} {m m' : Nat → β}

/-- `memcpy`, which is undefined where the ranges share a byte. -/
def memcpy (m : Nat → β) (dest src size : Nat) : Option (Nat → β) :=
  if (Extent.mk dest size).Apart ⟨src, size⟩ then
    some fun i => if dest ≤ i ∧ i < dest + size then m (src + (i - dest)) else m i
  else none

/-- An extent is moved with `memcpy`, unless it is in place. -/
def moveDown (dest : Nat) (e : Extent) (m : Nat → β) : Option (Nat → β) :=
  if e.start ≠ dest then memcpy m dest e.start e.len else some m

def slideDown : Nat → List Extent → (Nat → β) → Option (Nat → β)
  | _, [], m => some m
  | dest, e :: rest, m => (moveDown dest e m).bind (slideDown (dest + e.len) rest)

/-- Each extent stays in place or moves past all of its cells. -/
def ClearSlide : Nat → List Extent → Prop
  | _, [] => True
  | dest, e :: rest => (e.len = 0 ∨ e.start = dest ∨ dest + e.len ≤ e.start) ∧ ClearSlide (dest + e.len) rest

/-- The cells of the extents are in `m'` where they have been moved to, and
those below `dest` are as they were. -/
structure Moved (m m' : Nat → β) (dest : Nat) (extents : List Extent) : Prop where
  below : ∀ i < dest, m' i = m i
  cells : ∀ before e after, extents = before ++ e :: after → ∀ i < e.len,
    m' (dest + (before.map len).sum + i) = m (e.start + i)

theorem Slidable.moveDown_isSome_iff (h : Slidable dest (e :: rest)) (m : Nat → β) :
    (moveDown dest e m).isSome ↔ e.len = 0 ∨ e.start = dest ∨ dest + e.len ≤ e.start := by
  have hfirst := h.above e List.mem_cons_self
  unfold moveDown memcpy
  by_cases hplace : e.start = dest
  · simp [hplace]
  · rw [if_pos hplace, Option.isSome_ite, apart_iff]
    simp only [stop_mk]
    omega

/-- A move writes the extent's own place. -/
theorem moveDown_spec (hrun : moveDown dest e m = some m') :
    (∀ i < e.len, m' (dest + i) = m (e.start + i)) ∧ ∀ i, i < dest ∨ dest + e.len ≤ i → m' i = m i := by
  unfold moveDown memcpy at hrun
  split at hrun
  · split at hrun
    · obtain rfl := Option.some.inj hrun
      refine ⟨fun i hi => ?_, fun i hi => ?_⟩
      · dsimp only
        rw [if_pos (by omega), Nat.add_sub_cancel_left]
      · exact if_neg (by omega)
    · cases hrun
  · rename_i hplace
    obtain rfl := Option.some.inj hrun
    exact ⟨fun i _ => by rw [not_not.mp hplace], fun _ _ => rfl⟩

/-- The moves are defined exactly when none of them writes over its own source. -/
theorem Slidable.slideDown_isSome_iff (h : Slidable dest extents) (m : Nat → β) :
    (slideDown dest extents m).isSome ↔ ClearSlide dest extents := by
  induction extents generalizing dest m with
  | nil => exact iff_of_true rfl trivial
  | cons e rest ih =>
    have hfirst := h.moveDown_isSome_iff m
    cases hrun : moveDown dest e m with
    | none =>
      rw [hrun] at hfirst
      rw [slideDown, hrun]
      exact iff_of_false (by simp) fun hclear => absurd (hfirst.mpr hclear.1) (by simp)
    | some middle =>
      rw [hrun] at hfirst
      rw [slideDown, hrun, Option.bind_some, ih h.tail middle]
      exact (and_iff_right (hfirst.mp rfl)).symm

/-- The moves never write a cell that is still to be moved, nor one that has
been. -/
theorem Slidable.moved (h : Slidable dest extents) (hrun : slideDown dest extents m = some m') :
    Moved m m' dest extents := by
  induction extents generalizing dest m with
  | nil =>
    obtain rfl := Option.some.inj hrun
    exact ⟨fun _ _ => rfl, fun before e after hsplit => by simp at hsplit⟩
  | cons e rest ih =>
    rw [slideDown, Option.bind_eq_some_iff] at hrun
    obtain ⟨middle, hfirst, hrest⟩ := hrun
    obtain ⟨hmoved, hframe⟩ := moveDown_spec hfirst
    have htail := h.tail
    have hlater := ih htail hrest
    refine ⟨fun i hi => (hlater.below i (by omega)).trans (hframe i (.inl hi)), ?_⟩
    intro before other after hsplit i hi
    cases before with
    | nil =>
      obtain ⟨rfl, rfl⟩ : e = other ∧ rest = after := by simpa using hsplit
      rw [List.map_nil, List.sum_nil, Nat.add_zero, hlater.below _ (by omega)]
      exact hmoved i hi
    | cons first before =>
      obtain ⟨rfl, hrest⟩ : e = first ∧ rest = before ++ other :: after := by simpa using hsplit
      have habove := htail.above other (hrest ▸ List.mem_append_right _ List.mem_cons_self)
      rw [List.map_cons, List.sum_cons, ← Nat.add_assoc, hlater.cells before other after hrest i hi]
      exact hframe _ (.inr (by omega))

end Memory

end Extent
