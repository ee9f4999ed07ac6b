import Mathlib.Algebra.Order.Floor.Ring
import Mathlib.Data.List.GetD
import Mathlib.Data.Rat.Floor
import KernelcModerne.Lib.OrderStatistic
import KernelcModerne.Performance.LatencyAnalyzer

open Locking OrderStatistic

namespace Kernel.Performance.LatencyAnalyzer

/-- The index that `getPercentile` computes. -/
def percentileIndex (latencies : List Rat) (percentile : Rat) : Nat :=
  (percentile * (latencies.length - 1) / 100).floor.toNat

/-- A call from outside answers `value` and changes nothing. -/
def Answers (self : LatencyAnalyzer) (call : Locking LatencyAnalyzer Rat) (value : Rat) : Prop :=
  call.runAt false self = some (value, self)

/-- The value of a percentile is one of the latencies, at its rank; the values
rise with the percentiles, and the mean lies between the first one and the
last. -/
def Consistent (self : LatencyAnalyzer) (component : String) (p q : Rat) : Prop :=
  percentileIndex (self.latencies component) p < (self.latencies component).length ∧
  ∃ atP atQ least greatest average maximum,
    self.Answers (getPercentile component p) atP ∧ self.Answers (getPercentile component q) atQ ∧
    self.Answers (getPercentile component 0) least ∧ self.Answers (getPercentile component 100) greatest ∧
    self.Answers (getAverageLatency component) average ∧ self.Answers (getMaxLatency component) maximum ∧
    atP ∈ self.latencies component ∧
    ⌊p * (((self.latencies component).length : Rat) - 1) / 100⌋ + 1 ≤
      ((self.latencies component).countP fun x => decide (x ≤ atP) : Nat) ∧
    atP ≤ atQ ∧ least ≤ average ∧ average ≤ greatest ∧ greatest ≤ maximum

variable {self : LatencyAnalyzer} {component : String} {latencies : List Rat} {p q : Rat}

theorem answers_getPercentile (hne : self.latencies component ≠ []) (percentile : Rat) :
    self.Answers (getPercentile component percentile)
      ((ascending (self.latencies component)).getD (percentileIndex (self.latencies component) percentile) 0) := by
  have hempty : (self.latencies component).isEmpty = false := by simpa using hne
  unfold Answers getPercentile
  rw [runAt_lockGuard_false, runAt_bind, runAt_get, Option.bind_some]
  simp only [hempty]
  rfl

theorem answers_getAverageLatency (hne : self.latencies component ≠ []) :
    self.Answers (getAverageLatency component)
      ((self.latencies component).sum / (self.latencies component).length) := by
  have hempty : (self.latencies component).isEmpty = false := by simpa using hne
  unfold Answers getAverageLatency
  rw [runAt_lockGuard_false, runAt_bind, runAt_get, Option.bind_some, List.sum_eq_foldl]
  simp only [hempty]
  rfl

theorem answers_getMaxLatency (hne : self.latencies component ≠ []) :
    self.Answers (getMaxLatency component) ((self.latencies component).foldl max 0) := by
  have hempty : (self.latencies component).isEmpty = false := by simpa using hne
  unfold Answers getMaxLatency
  rw [runAt_lockGuard_false, runAt_bind, runAt_get, Option.bind_some]
  simp only [hempty]
  rfl

theorem percentileIndex_eq_floor (latencies : List Rat) (percentile : Rat) :
    percentileIndex latencies percentile = ⌊percentile * (latencies.length - 1) / 100⌋₊ := by
  rw [percentileIndex, Rat.floor_def, ← Rat.floor_def', Int.floor_toNat]

theorem length_sub_one_nonneg (hne : latencies ≠ []) : (0 : Rat) ≤ latencies.length - 1 := by
  have hpos : (1 : Rat) ≤ latencies.length := by exact_mod_cast List.length_pos_iff.mpr hne
  linarith

theorem percentileIndex_mono (hne : latencies ≠ []) (hpq : p ≤ q) :
    percentileIndex latencies p ≤ percentileIndex latencies q := by
  rw [percentileIndex_eq_floor, percentileIndex_eq_floor]
  have hsize := length_sub_one_nonneg hne
  apply Nat.floor_mono
  gcongr

theorem percentileIndex_zero (latencies : List Rat) : percentileIndex latencies 0 = 0 := by
  rw [percentileIndex_eq_floor, zero_mul, zero_div, Nat.floor_zero]

/-- The percentile 100 is the last place. -/
theorem percentileIndex_hundred (hne : latencies ≠ []) :
    percentileIndex latencies 100 = latencies.length - 1 := by
  have hpos := List.length_pos_iff.mpr hne
  rw [percentileIndex_eq_floor, mul_div_cancel_left₀ _ (by norm_num), ← Nat.cast_one, ← Nat.cast_sub hpos,
    Nat.floor_natCast]

theorem percentileIndex_lt (hne : latencies ≠ []) (hp : p ≤ 100) :
    percentileIndex latencies p < latencies.length := by
  have hpos := List.length_pos_iff.mpr hne
  have hle := percentileIndex_mono hne hp
  rw [percentileIndex_hundred hne] at hle
  omega

/-- A percentile's value is found at its index. -/
theorem exists_getPercentile (hne : self.latencies component ≠ []) (hp : p ≤ 100) :
    ∃ h : percentileIndex (self.latencies component) p < (ascending (self.latencies component)).length,
      self.Answers (getPercentile component p)
        (ascending (self.latencies component))[percentileIndex (self.latencies component) p] := by
  have h : percentileIndex (self.latencies component) p < (ascending (self.latencies component)).length := by
    rw [length_ascending]
    exact percentileIndex_lt hne hp
  refine ⟨h, ?_⟩
  rw [← List.getD_eq_getElem _ 0 h]
  exact answers_getPercentile hne p

theorem floor_succ_le_countP (hne : latencies ≠ []) (hp : 0 ≤ p)
    (h : percentileIndex latencies p < (ascending latencies).length) :
    ⌊p * ((latencies.length : Rat) - 1) / 100⌋ + 1 ≤
      (latencies.countP fun x => decide (x ≤ (ascending latencies)[percentileIndex latencies p]) : Nat) := by
  have hsize := length_sub_one_nonneg hne
  have hindex : (percentileIndex latencies p : Int) = ⌊p * ((latencies.length : Rat) - 1) / 100⌋ := by
    rw [percentileIndex_eq_floor, Int.natCast_floor_eq_floor (by positivity)]
  have hcount := succ_le_countP h
  omega

/-- The statistics of a component with a history fit its latencies and each
other, for all percentiles up to 100. -/
theorem statistics_consistent (hne : self.latencies component ≠ []) (hp : 0 ≤ p) (hpq : p ≤ q) (hq : q ≤ 100) :
    self.Consistent component p q := by
  obtain ⟨hatP, hanswerP⟩ := exists_getPercentile hne (hpq.trans hq)
  obtain ⟨hatQ, hanswerQ⟩ := exists_getPercentile hne hq
  obtain ⟨hfirst, hleast⟩ := exists_getPercentile hne (show (0 : Rat) ≤ 100 by norm_num)
  obtain ⟨hlast, hgreatest⟩ := exists_getPercentile hne (le_refl (100 : Rat))
  refine ⟨percentileIndex_lt hne (hpq.trans hq), _, _, _, _, _, _, hanswerP, hanswerQ, hleast, hgreatest,
    answers_getAverageLatency hne, answers_getMaxLatency hne, getElem_ascending_mem hatP,
    floor_succ_le_countP hne hp hatP, getElem_ascending_mono (percentileIndex_mono hne hpq) hatQ, ?_, ?_, ?_⟩
  · simp only [percentileIndex_zero]
    exact le_average hne fun x hx => first_le _ hx
  · simp only [percentileIndex_hundred hne]
    exact average_le hne fun x hx => le_last _ hx
  · exact le_foldl_max (List.mem_cons_of_mem _ (getElem_ascending_mem hlast))

/-- Two measurements, the clock having been set back during the first. -/
def setBack : LatencyAnalyzer where
  initialized := true
  measurements := ∅
  history := AList.singleton "IO" [⟨50, -2, "IO", "Read"⟩, ⟨90, 1, "IO", "Read"⟩]
  thresholds := ∅
  warnings := []
  reports := []

theorem statistics_consistent_setBack : setBack.Consistent "IO" 50 95 :=
  statistics_consistent (List.cons_ne_nil _ _) (by norm_num) (by norm_num) (by norm_num)

end Kernel.Performance.LatencyAnalyzer
