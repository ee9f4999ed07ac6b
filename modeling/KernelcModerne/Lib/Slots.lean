import Mathlib.Data.List.Infix

namespace Slots

variable {α : Type*}

/-- Each item of `handles` is in its slot. -/
def Hold (slots : List α) (handles : List (α × Nat)) : Prop :=
  ∀ handle ∈ handles, slots[handle.2]? = some handle.1

theorem hold_zipIdx (slots : List α) : Hold slots slots.zipIdx :=
  fun _ hhandle => List.mem_zipIdx_iff_getElem?.mp hhandle

theorem zipIdx_concat (slots : List α) (a : α) :
    (slots ++ [a]).zipIdx = slots.zipIdx ++ [(a, slots.length)] := by
  simp [List.zipIdx_append]

variable {p : α → Bool}

private theorem concat_of_exists {slots : List α} (h : ∃ a ∈ slots, p a) :
    ∃ front last, slots = front ++ [last] := by
  obtain ⟨a, ha, _⟩ := h
  exact ⟨_, _, (List.dropLast_append_getLast (List.ne_nil_of_mem ha)).symm⟩

/-- Erasing the last item leaves the others in the slots they had. -/
theorem zipIdx_eraseP {slots : List α} (h : ∃ a ∈ slots, p a) (hlast : ∀ a ∈ slots.dropLast, ¬ p a) :
    slots.zipIdx.eraseP (p ·.1) = (slots.eraseP p).zipIdx := by
  obtain ⟨front, last, rfl⟩ := concat_of_exists h
  rw [List.dropLast_concat] at hlast
  have hp : p last := by
    obtain ⟨a, ha, hpa⟩ := h
    cases List.mem_append.mp ha with
    | inl hfront => exact absurd hpa (hlast a hfront)
    | inr hmem => exact List.mem_singleton.mp hmem ▸ hpa
  have hfront : ∀ handle ∈ front.zipIdx, ¬ p handle.1 :=
    fun handle hhandle => hlast handle.1 (List.fst_mem_of_mem_zipIdx hhandle)
  rw [zipIdx_concat, List.eraseP_append_right _ hfront, List.eraseP_append_right _ hlast]
  simp [hp]

/-- Erasing an earlier item leaves the slot of the last one behind the end. -/
theorem not_hold_eraseP {slots : List α} {a : α} (ha : a ∈ slots.dropLast) (hp : p a) :
    ¬ Hold (slots.eraseP p) (slots.zipIdx.eraseP (p ·.1)) := by
  obtain ⟨front, last, rfl⟩ := concat_of_exists ⟨a, List.mem_of_mem_dropLast ha, hp⟩
  rw [List.dropLast_concat] at ha
  intro hold
  obtain ⟨i, hi⟩ := List.mem_iff_getElem?.mp ha
  have hhandle : (a, i) ∈ front.zipIdx := List.mk_mem_zipIdx_iff_getElem?.mpr hi
  have hmem : (last, front.length) ∈ (front ++ [last]).zipIdx.eraseP (p ·.1) := by
    rw [zipIdx_concat, List.eraseP_append_left (a := (a, i)) hp _ hhandle]
    exact List.mem_append_right _ (List.mem_singleton_self _)
  have hslot := hold _ hmem
  rw [List.eraseP_append_left hp _ ha] at hslot
  have hlength : (front.eraseP p ++ [last]).length ≤ front.length := by
    rw [List.length_append, List.length_eraseP_of_mem ha hp]
    have hpos := List.length_pos_of_mem ha
    simp
    omega
  rw [List.getElem?_eq_none hlength] at hslot
  cases hslot

/-- Erasing an item keeps all the others in their slots exactly when it is the
last. -/
theorem hold_eraseP_iff {slots : List α} (h : ∃ a ∈ slots, p a) :
    Hold (slots.eraseP p) (slots.zipIdx.eraseP (p ·.1)) ↔ ∀ a ∈ slots.dropLast, ¬ p a := by
  constructor
  · exact fun hold a ha hp => not_hold_eraseP ha hp hold
  · intro hlast
    rw [zipIdx_eraseP h hlast]
    exact hold_zipIdx _

end Slots
