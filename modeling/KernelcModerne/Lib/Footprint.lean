import KernelcModerne.Lib.Transition

/-! Operations on a state that is read place by place. Each writes some of the
places, and what it writes there comes from nowhere else. -/

open Transition

namespace Footprint

variable {σ α ι κ : Type*}

/-- On the states with `P` the operations are defined. What one leaves at a place
depends on what was there, and is that where it does not write. -/
structure Pointwise (P : σ → Prop) (view : σ → ι → κ) (step : σ → α → Option σ) (writes : α → ι → Prop) :
    Prop where
  total : ∀ s a, P s → ∃ s', step s a = some s' ∧ P s'
  frame : ∀ s a s' i, P s → step s a = some s' → ¬ writes a i → view s' i = view s i
  agree : ∀ s t a s' t' i, P s → P t → step s a = some s' → step t a = some t' →
    view s i = view t i → view s' i = view t' i

namespace Pointwise

variable {P : σ → Prop} {view : σ → ι → κ} {step : σ → α → Option σ} {writes : α → ι → Prop}

theorem preserves (h : Pointwise P view step writes) {s s' : σ} {a : α} (hs : P s) (hstep : step s a = some s') :
    P s' := by
  obtain ⟨s'', hs'', hP⟩ := h.total s a hs
  rw [hstep, Option.some.injEq] at hs''
  exact hs'' ▸ hP

theorem run_preserves (h : Pointwise P view step writes) {ops : List α} {s t : σ} (hs : P s)
    (hrun : run step s ops = some t) : P t :=
  run_invariant P (fun _ _ _ hs hstep => h.preserves hs hstep) ops hs hrun

/-- A run leaves what none of its operations writes. -/
theorem run_frame (h : Pointwise P view step writes) {ops : List α} {s t : σ} {i : ι} (hs : P s)
    (hrun : run step s ops = some t) (hops : ∀ a ∈ ops, ¬ writes a i) : view t i = view s i := by
  induction ops generalizing s with
  | nil =>
    rw [run_nil, Option.some.injEq] at hrun
    rw [hrun]
  | cons a ops ih =>
    rw [run_cons, Option.bind_eq_some_iff] at hrun
    obtain ⟨s', hstep, hrun⟩ := hrun
    rw [List.forall_mem_cons] at hops
    rw [ih (h.preserves hs hstep) hrun hops.2, h.frame s a s' i hs hstep hops.1]

/-- The same run from two states that agree at a place ends in such states. -/
theorem run_agree (h : Pointwise P view step writes) {ops : List α} {s t s' t' : σ} {i : ι} (hs : P s) (ht : P t)
    (hrun : run step s ops = some s') (hrun' : run step t ops = some t') (hview : view s i = view t i) :
    view s' i = view t' i := by
  induction ops generalizing s t with
  | nil =>
    rw [run_nil, Option.some.injEq] at hrun hrun'
    rw [← hrun, ← hrun', hview]
  | cons a ops ih =>
    rw [run_cons, Option.bind_eq_some_iff] at hrun hrun'
    obtain ⟨s₁, hstep, hrun⟩ := hrun
    obtain ⟨t₁, hstep', hrun'⟩ := hrun'
    exact ih (h.preserves hs hstep) (h.preserves ht hstep') hrun hrun'
      (h.agree s t a s₁ t₁ i hs ht hstep hstep' hview)

/-- Where only a part of a run writes, it leaves what this part alone would. -/
theorem run_part (h : Pointwise P view step writes) {first part last : List α} {s t t' : σ} {i : ι} (hs : P s)
    (hrun : run step s (first ++ (part ++ last)) = some t) (hpart : run step s part = some t')
    (hfirst : ∀ a ∈ first, ¬ writes a i) (hlast : ∀ a ∈ last, ¬ writes a i) : view t i = view t' i := by
  rw [run_append, Option.bind_eq_some_iff] at hrun
  obtain ⟨s₁, hrun₁, hrun⟩ := hrun
  rw [run_append, Option.bind_eq_some_iff] at hrun
  obtain ⟨s₂, hrun₂, hrun⟩ := hrun
  have hs₁ := h.run_preserves hs hrun₁
  rw [h.run_frame (h.run_preserves hs₁ hrun₂) hrun hlast]
  exact h.run_agree hs₁ hs hrun₂ hpart (h.run_frame hs hrun₁ hfirst)

end Pointwise

end Footprint
