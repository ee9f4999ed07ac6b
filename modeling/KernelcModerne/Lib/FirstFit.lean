import KernelcModerne.Lib.Extent

namespace Extent

/-- Every cell of the extent lies below `total` and is free. -/
def Free (used : Nat → Bool) (total : Nat) (e : Extent) : Prop :=
  e.stop ≤ total ∧ ∀ i ∈ e.cells, used i = false

/-- The answers a first-fit search for `n` consecutive free cells may give:
the least start of a free extent, or `none` when there is no free extent. -/
def IsFirstFit (used : Nat → Bool) (total n : Nat) : Option Nat → Prop
  | some s => Free used total ⟨s, n⟩ ∧ ∀ t < s, ¬ Free used total ⟨t, n⟩
  | none => ∀ s, ¬ Free used total ⟨s, n⟩

theorem IsFirstFit.unique {used : Nat → Bool} {total n : Nat} {r r' : Option Nat}
    (h : IsFirstFit used total n r) (h' : IsFirstFit used total n r') : r = r' := by
  cases r with
  | none =>
    cases r' with
    | none => rfl
    | some s' => exact absurd h'.1 (h s')
  | some s =>
    cases r' with
    | none => exact absurd h.1 (h' s)
    | some s' =>
      have hle := not_lt.mp fun hlt => h.2 s' hlt h'.1
      have hge := not_lt.mp fun hlt => h'.2 s hlt h.1
      exact congrArg some (le_antisymm hle hge)

/-- Where the cells in use are the first `k` ones, first fit answers `k`. -/
theorem isFirstFit_of_initial {used : Nat → Bool} {n k : Nat} (total : Nat)
    (hused : ∀ i, used i = decide (i < k)) (hn : 0 < n) :
    IsFirstFit used total n (if k + n ≤ total then some k else none) := by
  have hfree (s : Nat) : Free used total ⟨s, n⟩ ↔ s + n ≤ total ∧ k ≤ s := by
    simp only [Free, stop_mk, mem_cells, hused, decide_eq_false_iff_not, not_lt]
    constructor
    · rintro ⟨hstop, hcells⟩
      exact ⟨hstop, hcells s ⟨le_refl s, by omega⟩⟩
    · rintro ⟨hstop, hk⟩
      exact ⟨hstop, fun i hi => hk.trans hi.1⟩
  split
  · exact ⟨(hfree k).mpr ⟨by assumption, le_refl k⟩, fun t ht => by rw [hfree]; omega⟩
  · intro s
    rw [hfree]
    omega

/-- The state of a first-fit scan before cell `i`: the last `run` cells are
free, there are fewer than `n` of them, the run cannot be extended to the left,
and no free extent ends at or before `i`. -/
structure ScanInvariant (used : Nat → Bool) (n i run start : Nat) : Prop where
  run_le : run ≤ i
  run_lt : run < n
  start_eq : 0 < run → start = i - run
  free : ∀ j, i - run ≤ j → j < i → used j = false
  maximal : run = i ∨ used (i - run - 1) = true
  none_before : ∀ t, t + n ≤ i → ¬ Free used i ⟨t, n⟩

theorem ScanInvariant.init (used : Nat → Bool) {n : Nat} (hn : 0 < n) (start : Nat) :
    ScanInvariant used n 0 0 start where
  run_le := le_refl 0
  run_lt := hn
  start_eq h := absurd h (lt_irrefl 0)
  free j _ hj := absurd hj (Nat.not_lt_zero j)
  maximal := .inl rfl
  none_before t ht := by omega

/-- A used cell ends the run. -/
theorem ScanInvariant.step_used {used : Nat → Bool} {n i run start : Nat}
    (h : ScanInvariant used n i run start) (hused : used i = true) :
    ScanInvariant used n (i + 1) 0 start where
  run_le := Nat.zero_le _
  run_lt := Nat.zero_lt_of_lt h.run_lt
  start_eq h := absurd h (lt_irrefl 0)
  free j hlo hhi := by omega
  maximal := .inr (by simpa using hused)
  none_before t ht hfree := by
    have hn := h.run_lt
    by_cases hlast : t + n = i + 1
    · have := hfree.2 i (by simp; omega)
      simp [hused] at this
    · exact h.none_before t (by omega)
        ⟨by simp; omega, hfree.2⟩

/-- A free cell extends a run that stays too short. -/
theorem ScanInvariant.step_free {used : Nat → Bool} {n i run start : Nat}
    (h : ScanInvariant used n i run start) (hfree : used i = false) (hshort : run + 1 ≠ n) :
    ScanInvariant used n (i + 1) (run + 1) (if run = 0 then i else start) where
  run_le := Nat.succ_le_succ h.run_le
  run_lt := lt_of_le_of_ne h.run_lt hshort
  start_eq _ := by
    split
    · omega
    · rw [h.start_eq (by omega)]
      omega
  free j hlo hhi := by
    by_cases hj : j = i
    · rw [hj, hfree]
    · exact h.free j (by omega) (by omega)
  maximal := by
    cases h.maximal with
    | inl hrun => exact .inl (by omega)
    | inr hrun => exact .inr (by rwa [Nat.add_sub_add_right])
  none_before t ht hext := by
    have hrun := h.run_lt
    have hle := h.run_le
    by_cases hlast : t + n = i + 1
    · -- the extent reaches back past the maximal run
      cases h.maximal with
      | inl hall => omega
      | inr hblock =>
        have hfirst := hext.2 (i - run - 1) (by simp; omega)
        simp [hblock] at hfirst
    · exact h.none_before t (by omega) ⟨by simp; omega, hext.2⟩

/-- A free cell that completes the run gives the first fit. -/
theorem ScanInvariant.found {used : Nat → Bool} {n i run start total : Nat}
    (h : ScanInvariant used n i run start) (hfree : used i = false) (hfull : run + 1 = n)
    (htotal : i < total) : IsFirstFit used total n (some (if run = 0 then i else start)) := by
  have hle := h.run_le
  have hstart : (if run = 0 then i else start) = i - run := by
    split
    · omega
    · exact h.start_eq (by omega)
  rw [hstart]
  refine ⟨⟨by simp; omega, ?_⟩, ?_⟩
  · intro j hj
    simp only [mem_cells, stop_mk] at hj
    by_cases hlast : j = i
    · rw [hlast, hfree]
    · exact h.free j hj.1 (by omega)
  · intro t ht hext
    exact h.none_before t (by omega) ⟨by simp; omega, hext.2⟩

/-- A scan that reaches the end found that nothing fits. -/
theorem ScanInvariant.exhausted {used : Nat → Bool} {n run start total : Nat}
    (h : ScanInvariant used n total run start) : IsFirstFit used total n none := by
  intro s hext
  exact h.none_before s (by simpa using hext.1) hext

end Extent
