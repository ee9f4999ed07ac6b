import Mathlib.Data.Set.Card
import KernelcModerne.Lib.FirstFit

namespace Extent

/-- A run of free cells that cannot be extended below `total`. -/
structure IsMaximalRun (used : Nat → Bool) (total : Nat) (e : Extent) : Prop where
  nonempty : 0 < e.len
  free : Free used total e
  before : e.start = 0 ∨ used (e.start - 1) = true
  behind : e.stop = total ∨ used e.stop = true

/-- A free cell with none before it. -/
def BeginsRun (used : Nat → Bool) (i : Nat) : Prop := used i = false ∧ (i = 0 ∨ used (i - 1) = true)

instance (used : Nat → Bool) (i : Nat) : Decidable (BeginsRun used i) := inferInstanceAs (Decidable (_ ∧ _))

/-- The number of cells before `i` that begin a run. -/
def runsBegun (used : Nat → Bool) (i : Nat) : Nat := ((Finset.range i).filter (BeginsRun used)).card

variable {used : Nat → Bool} {total i : Nat} {e e' : Extent}

@[simp] theorem runsBegun_zero (used : Nat → Bool) : runsBegun used 0 = 0 := rfl

theorem runsBegun_succ (used : Nat → Bool) (i : Nat) :
    runsBegun used (i + 1) = if BeginsRun used i then runsBegun used i + 1 else runsBegun used i := by
  have hnot : i ∉ (Finset.range i).filter (BeginsRun used) := by simp
  rw [runsBegun, Finset.range_add_one, Finset.filter_insert, runsBegun]
  split
  · exact Finset.card_insert_of_notMem hnot
  · rfl

theorem IsMaximalRun.start_mem (h : IsMaximalRun used total e) : e.start ∈ e.cells := by
  have hnonempty := h.nonempty
  rw [mem_cells, stop]
  omega

theorem IsMaximalRun.begins (h : IsMaximalRun used total e) : BeginsRun used e.start :=
  ⟨h.free.2 e.start h.start_mem, h.before⟩

/-- Of two maximal runs that begin at one cell none ends earlier. -/
theorem IsMaximalRun.stop_le (h : IsMaximalRun used total e) (h' : IsMaximalRun used total e')
    (hstart : e.start = e'.start) : e'.stop ≤ e.stop := by
  by_contra hlonger
  have hinside : e'.stop ≤ total := h'.free.1
  have hnonempty := h.nonempty
  cases h.behind with
  | inl hend => omega
  | inr hused =>
    have hmem : e.stop ∈ e'.cells := by
      rw [mem_cells]
      unfold stop at *
      omega
    rw [h'.free.2 e.stop hmem] at hused
    cases hused

theorem IsMaximalRun.eq_of_start_eq (h : IsMaximalRun used total e) (h' : IsMaximalRun used total e')
    (hstart : e.start = e'.start) : e = e' := by
  have hle := h.stop_le h' hstart
  have hge := h'.stop_le h hstart.symm
  unfold stop at hle hge
  exact Extent.ext hstart (by omega)

/-- A run goes from its first cell to the next one in use. -/
theorem BeginsRun.exists_isMaximalRun (h : BeginsRun used i) (hi : i < total) :
    ∃ e, IsMaximalRun used total e ∧ e.start = i := by
  have hend : ∃ stop, i < stop ∧ (stop = total ∨ used stop = true) := ⟨total, hi, .inl rfl⟩
  obtain ⟨hlt, hbehind⟩ := Nat.find_spec hend
  have hstop : (Extent.mk i (Nat.find hend - i)).stop = Nat.find hend := by
    rw [stop_mk]
    omega
  refine ⟨⟨i, Nat.find hend - i⟩, ⟨?_, ⟨?_, ?_⟩, h.2, ?_⟩, rfl⟩
  · exact Nat.sub_pos_of_lt hlt
  · rw [hstop]
    exact Nat.find_min' hend ⟨hi, .inl rfl⟩
  · intro j hj
    rw [mem_cells, hstop] at hj
    by_cases hfirst : j = i
    · rw [hfirst, h.1]
    · have hnot := Nat.find_min hend hj.2
      rw [Bool.eq_false_iff]
      exact fun hused => hnot ⟨lt_of_le_of_ne hj.1 (Ne.symm hfirst), .inr hused⟩
  · rwa [hstop]

/-- There are as many maximal runs as cells that begin one. -/
theorem ncard_isMaximalRun (used : Nat → Bool) (total : Nat) :
    {e | IsMaximalRun used total e}.ncard = runsBegun used total := by
  have himage : start '' {e | IsMaximalRun used total e} = ↑((Finset.range total).filter (BeginsRun used)) := by
    ext i
    simp only [Set.mem_image, Set.mem_ofPred_eq, Finset.coe_filter, Finset.mem_range]
    constructor
    · rintro ⟨e, he, rfl⟩
      have hinside : e.stop ≤ total := he.free.1
      have hlt := (mem_cells.mp he.start_mem).2
      exact ⟨by omega, he.begins⟩
    · rintro ⟨hi, hbegins⟩
      exact hbegins.exists_isMaximalRun hi
  rw [runsBegun, ← Set.ncard_coe_finset, ← himage]
  exact (Set.InjOn.ncard_image fun e he e' he' hstart => he.eq_of_start_eq he' hstart).symm

/-- What a scan before cell `i` knows of the runs: the number of those begun, and
whether it is inside of one. -/
structure RunScan (used : Nat → Bool) (i fragments : Nat) (inFragment : Bool) : Prop where
  begun : fragments = runsBegun used i
  inside : inFragment = true ↔ 0 < i ∧ used (i - 1) = false

theorem RunScan.init (used : Nat → Bool) : RunScan used 0 0 false where
  begun := (runsBegun_zero used).symm
  inside := by simp

/-- A cell in use ends the run. -/
theorem RunScan.step_used {fragments : Nat} {inFragment : Bool} (h : RunScan used i fragments inFragment)
    (hused : used i = true) : RunScan used (i + 1) fragments false where
  begun := by
    rw [runsBegun_succ, if_neg (by simp [BeginsRun, hused])]
    exact h.begun
  inside := by simp [hused]

/-- A free cell behind a run continues it. -/
theorem RunScan.step_inside {fragments : Nat} (h : RunScan used i fragments true)
    (hfree : used i = false) : RunScan used (i + 1) fragments true where
  begun := by
    obtain ⟨hpos, hbefore⟩ := h.inside.mp rfl
    rw [runsBegun_succ, if_neg]
    · exact h.begun
    · rintro ⟨_, hfirst | hused⟩
      · omega
      · rw [hbefore] at hused
        cases hused
  inside := by simp [hfree]

/-- Any other free cell begins one. -/
theorem RunScan.step_begin {fragments : Nat} (h : RunScan used i fragments false)
    (hfree : used i = false) : RunScan used (i + 1) (fragments + 1) true where
  begun := by
    have houtside : ¬ (0 < i ∧ used (i - 1) = false) := fun hinside => by simpa using h.inside.mpr hinside
    rw [runsBegun_succ, if_pos, h.begun]
    refine ⟨hfree, ?_⟩
    by_cases hfirst : i = 0
    · exact .inl hfirst
    · exact .inr (Bool.eq_true_of_not_eq_false fun hbefore => houtside ⟨by omega, hbefore⟩)
  inside := by simp [hfree]

/-- Every run has a free cell of its own. -/
theorem runsBegun_le (used : Nat → Bool) (total : Nat) :
    runsBegun used total ≤ ((Finset.range total).filter fun i => used i = false).card :=
  Finset.card_le_card (Finset.monotone_filter_right _ fun _ _ h => h.1)

/-- The first free cell begins a run. -/
theorem runsBegun_eq_zero_iff (used : Nat → Bool) (total : Nat) :
    runsBegun used total = 0 ↔ ((Finset.range total).filter fun i => used i = false).card = 0 := by
  constructor
  · intro hnone
    rw [runsBegun, Finset.card_eq_zero, Finset.filter_eq_empty_iff] at hnone
    rw [Finset.card_eq_zero, Finset.filter_eq_empty_iff]
    intro i
    induction i using Nat.strong_induction_on with
    | _ i ih =>
      intro hi hfree
      refine hnone hi ⟨hfree, ?_⟩
      by_cases hfirst : i = 0
      · exact .inl hfirst
      · have hbefore := ih (i - 1) (by omega) (by rw [Finset.mem_range] at *; omega)
        exact .inr (Bool.eq_true_of_not_eq_false hbefore)
  · intro hnone
    have hle := runsBegun_le used total
    omega

end Extent
