import Mathlib.Algebra.Order.BigOperators.Group.List
import KernelcModerne.Haptics.VibrationController

open Ramp

namespace VibrationController

/-- `update()` after each of the time steps. -/
def updates (self : VibrationController) (steps : List Rat) : VibrationController :=
  steps.foldl (fun self deltaTime => self.update (self.lastUpdate + deltaTime)) self

/-- One of the steps lifts the intensity from 0 over the deadzone, and from it on
they add up to the target. -/
def LiftsFromZero (deadzone target : Rat) (steps : List Rat) : Prop :=
  ∃ front deltaTime rest, steps = front ++ deltaTime :: rest ∧
    deadzone ≤ INTENSITY_RAMP_RATE * deltaTime ∧ target ≤ INTENSITY_RAMP_RATE * (deltaTime :: rest).sum

/-- The intensity is not below the deadzone at first, or the first step lifts it
over that, or a later one does so from 0, in time. -/
def LeavesDeadzone (self : VibrationController) (steps : List Rat) : Prop :=
  self.calibration.intensityDeadzone ≤ self.currentIntensity ∨
    ∃ deltaTime rest, steps = deltaTime :: rest ∧
      (self.calibration.intensityDeadzone ≤ self.currentIntensity + INTENSITY_RAMP_RATE * deltaTime ∨
        LiftsFromZero self.calibration.intensityDeadzone self.targetIntensity rest)

variable {self : VibrationController} {calibration : MotorCalibration} {current target deltaTime : Rat}
  {steps : List Rat}

/-- What an update makes of the intensity. -/
def nextIntensity (calibration : MotorCalibration) (target current deltaTime : Rat) : Rat :=
  applyDeadzone calibration (approach current target deltaTime)

theorem currentIntensity_updates (self : VibrationController) (steps : List Rat) :
    (self.updates steps).currentIntensity =
      steps.foldl (nextIntensity self.calibration self.targetIntensity) self.currentIntensity := by
  induction steps generalizing self with
  | nil => rfl
  | cons deltaTime steps ih =>
    have hnext : (self.update (self.lastUpdate + deltaTime)).currentIntensity =
        nextIntensity self.calibration self.targetIntensity self.currentIntensity deltaTime := by
      simp only [update, add_sub_cancel_left, interpolate_intensity, nextIntensity]
    rw [updates, List.foldl_cons, List.foldl_cons, ← hnext]
    exact ih _

/-- Between two intensities that are not below the deadzone it has no effect. -/
theorem nextIntensity_of_le (hcurrent : calibration.intensityDeadzone ≤ current)
    (htarget : calibration.intensityDeadzone ≤ target) (hstep : 0 ≤ deltaTime) :
    nextIntensity calibration target current deltaTime = approach current target deltaTime := by
  have hle : calibration.intensityDeadzone ≤ approach current target deltaTime :=
    (le_min hcurrent htarget).trans (approach_mem_uIcc current target hstep).1
  rw [nextIntensity, applyDeadzone, if_neg (not_lt.mpr hle)]

theorem sum_nonneg_of_pos (hsteps : ∀ deltaTime ∈ steps, 0 < deltaTime) : 0 ≤ steps.sum :=
  List.sum_nonneg fun deltaTime hmem => (hsteps deltaTime hmem).le

/-- From there on the steps add up. -/
theorem foldl_nextIntensity_of_le (hcurrent : calibration.intensityDeadzone ≤ current)
    (htarget : calibration.intensityDeadzone ≤ target) (hsteps : ∀ deltaTime ∈ steps, 0 < deltaTime) :
    steps.foldl (nextIntensity calibration target) current = approach current target steps.sum := by
  induction steps generalizing current with
  | nil => rw [List.foldl_nil, List.sum_nil, approach_zero]
  | cons deltaTime steps ih =>
    obtain ⟨hstep, hrest⟩ := List.forall_mem_cons.mp hsteps
    have hle := (le_min hcurrent htarget).trans (approach_mem_uIcc current target hstep.le).1
    have hsum := sum_nonneg_of_pos hrest
    rw [List.foldl_cons, nextIntensity_of_le hcurrent htarget hstep.le, ih hle hrest,
      approach_approach current target hstep.le hsum, List.sum_cons]

/-- Below the deadzone an update that does not lift the intensity over it starts
anew from 0. -/
theorem nextIntensity_of_lt (hcurrent : current < calibration.intensityDeadzone)
    (htarget : calibration.intensityDeadzone ≤ target) (hstep : 0 ≤ deltaTime) :
    nextIntensity calibration target current deltaTime =
      if calibration.intensityDeadzone ≤ current + deltaTime then approach current target deltaTime else 0 := by
  have happroach := approach_of_le (hcurrent.le.trans htarget) hstep
  by_cases hlift : calibration.intensityDeadzone ≤ current + deltaTime
  · have hle : calibration.intensityDeadzone ≤ approach current target deltaTime :=
      happroach ▸ le_min hlift htarget
    rw [nextIntensity, applyDeadzone, if_neg (not_lt.mpr hle), if_pos hlift]
  · have hlt : approach current target deltaTime < calibration.intensityDeadzone :=
      happroach ▸ (min_le_left _ _).trans_lt (not_le.mp hlift)
    rw [nextIntensity, applyDeadzone, if_pos hlt, if_neg hlift]

/-- Below the deadzone the first step decides. -/
theorem foldl_cons_nextIntensity_of_lt (hcurrent : current < calibration.intensityDeadzone)
    (htarget : calibration.intensityDeadzone ≤ target) (hstep : 0 < deltaTime)
    (hrest : ∀ deltaTime ∈ steps, 0 < deltaTime) :
    (deltaTime :: steps).foldl (nextIntensity calibration target) current =
      if calibration.intensityDeadzone ≤ current + deltaTime then
        approach current target (deltaTime + steps.sum)
      else steps.foldl (nextIntensity calibration target) 0 := by
  rw [List.foldl_cons, nextIntensity_of_lt hcurrent htarget hstep.le]
  split
  · next hlift =>
    have hle : calibration.intensityDeadzone ≤ approach current target deltaTime := by
      rw [approach_of_le (hcurrent.le.trans htarget) hstep.le]
      exact le_min hlift htarget
    rw [foldl_nextIntensity_of_le hle htarget hrest,
      approach_approach current target hstep.le (sum_nonneg_of_pos hrest)]
  · rfl

theorem liftsFromZero_cons {deadzone : Rat} :
    LiftsFromZero deadzone target (deltaTime :: steps) ↔
      (deadzone ≤ deltaTime ∧ target ≤ deltaTime + steps.sum) ∨ LiftsFromZero deadzone target steps := by
  simp only [LiftsFromZero, INTENSITY_RAMP_RATE, one_mul]
  constructor
  · rintro ⟨front, first, rest, hsplit, hlift, hsum⟩
    cases front with
    | nil =>
      obtain ⟨rfl, rfl⟩ := List.cons.inj hsplit
      exact .inl ⟨hlift, by rwa [List.sum_cons] at hsum⟩
    | cons _ front =>
      obtain ⟨rfl, rfl⟩ := List.cons.inj hsplit
      exact .inr ⟨front, first, rest, rfl, hlift, hsum⟩
  · rintro (⟨hlift, hsum⟩ | ⟨front, first, rest, rfl, hlift, hsum⟩)
    · exact ⟨[], deltaTime, steps, rfl, hlift, by rwa [List.sum_cons]⟩
    · exact ⟨deltaTime :: front, first, rest, rfl, hlift, hsum⟩

/-- What lifts the intensity over the deadzone in time takes at least as long as
the target is high. -/
theorem LiftsFromZero.le_sum {deadzone : Rat} (h : LiftsFromZero deadzone target steps)
    (hsteps : ∀ deltaTime ∈ steps, 0 < deltaTime) : target ≤ steps.sum := by
  obtain ⟨front, deltaTime, rest, rfl, _, hsum⟩ := h
  have hfront := sum_nonneg_of_pos fun deltaTime hmem => hsteps deltaTime (List.mem_append_left _ hmem)
  rw [INTENSITY_RAMP_RATE, one_mul] at hsum
  rw [List.sum_append]
  linarith

/-- From 0 the target is reached exactly where a step lifts the intensity over
the deadzone in time. -/
theorem foldl_nextIntensity_zero (hpos : 0 < calibration.intensityDeadzone)
    (htarget : calibration.intensityDeadzone ≤ target) (hsteps : ∀ deltaTime ∈ steps, 0 < deltaTime) :
    steps.foldl (nextIntensity calibration target) 0 = target ↔
      LiftsFromZero calibration.intensityDeadzone target steps := by
  induction steps with
  | nil =>
    refine iff_of_false (by rw [List.foldl_nil]; linarith) ?_
    rintro ⟨front, deltaTime, rest, hsplit, _⟩
    simp at hsplit
  | cons deltaTime steps ih =>
    obtain ⟨hstep, hrest⟩ := List.forall_mem_cons.mp hsteps
    have hsum := sum_nonneg_of_pos hrest
    rw [foldl_cons_nextIntensity_of_lt hpos htarget hstep hrest, zero_add, liftsFromZero_cons]
    split
    · next hlift =>
      rw [approach_eq_target_iff (by linarith), sub_zero, abs_of_nonneg (by linarith)]
      constructor
      · exact fun hreach => .inl ⟨hlift, hreach⟩
      · rintro (⟨_, hreach⟩ | hlater)
        · exact hreach
        · exact (hlater.le_sum hrest).trans (by linarith)
    · next hshort =>
      rw [ih hrest]
      exact (or_iff_right fun h => hshort h.1).symm

/-- In steps that add up to the distance to it the intensity reaches its target
exactly where it leaves the deadzone in time. -/
theorem reachesTarget_iff (hcurrent : 0 ≤ self.currentIntensity)
    (htarget : self.calibration.intensityDeadzone ≤ self.targetIntensity)
    (hsteps : ∀ deltaTime ∈ steps, 0 < deltaTime)
    (hsum : |self.targetIntensity - self.currentIntensity| / INTENSITY_RAMP_RATE ≤ steps.sum) :
    (self.updates steps).currentIntensity = self.targetIntensity ↔ self.LeavesDeadzone steps := by
  rw [INTENSITY_RAMP_RATE, div_one] at hsum
  rw [currentIntensity_updates, LeavesDeadzone]
  by_cases habove : self.calibration.intensityDeadzone ≤ self.currentIntensity
  · rw [foldl_nextIntensity_of_le habove htarget hsteps,
      approach_eq_target_iff ((abs_nonneg _).trans hsum)]
    exact iff_of_true hsum (.inl habove)
  · have hbelow := not_le.mp habove
    rw [or_iff_right habove]
    cases steps with
    | nil =>
      refine iff_of_false (hbelow.trans_le htarget).ne ?_
      rintro ⟨deltaTime, rest, hsplit, _⟩
      cases hsplit
    | cons deltaTime steps =>
      obtain ⟨hstep, hrest⟩ := List.forall_mem_cons.mp hsteps
      rw [List.sum_cons] at hsum
      have hfirst : (∃ first rest, deltaTime :: steps = first :: rest ∧
          (self.calibration.intensityDeadzone ≤ self.currentIntensity + INTENSITY_RAMP_RATE * first ∨
            LiftsFromZero self.calibration.intensityDeadzone self.targetIntensity rest)) ↔
          self.calibration.intensityDeadzone ≤ self.currentIntensity + deltaTime ∨
            LiftsFromZero self.calibration.intensityDeadzone self.targetIntensity steps := by
        simp [INTENSITY_RAMP_RATE]
      rw [hfirst, foldl_cons_nextIntensity_of_lt hbelow htarget hstep hrest]
      split
      · next hlift =>
        rw [approach_eq_target_iff ((abs_nonneg _).trans hsum)]
        exact iff_of_true hsum (.inl hlift)
      · next hshort =>
        rw [or_iff_right hshort]
        exact foldl_nextIntensity_zero (hcurrent.trans_lt hbelow) htarget hrest

/-- A controller that is to vibrate with full intensity. -/
def starting : VibrationController := (constructed 0).setIntensity 1

theorem targetIntensity_starting : starting.targetIntensity = 1 := by
  norm_num [starting, setIntensity, clamp]

/-- Two steps, the first one too small. -/
theorem reachesTarget_iff_starting :
    (starting.updates [1 / 25, 1]).currentIntensity = starting.targetIntensity ↔
      starting.LeavesDeadzone [1 / 25, 1] := by
  apply reachesTarget_iff
  · exact le_refl 0
  · rw [targetIntensity_starting]
    norm_num [starting, setIntensity, constructed]
  · norm_num
  · rw [targetIntensity_starting]
    norm_num [starting, setIntensity, constructed, INTENSITY_RAMP_RATE]

/-- A whole second of updates, each of which leaves the intensity in the
deadzone. -/
theorem small_steps_reset :
    |starting.targetIntensity - starting.currentIntensity| / INTENSITY_RAMP_RATE ≤
        (List.replicate 25 (1 / 25 : Rat)).sum ∧
      (starting.updates (List.replicate 25 (1 / 25))).currentIntensity ≠ starting.targetIntensity := by
  constructor
  · rw [targetIntensity_starting]
    norm_num [starting, setIntensity, constructed, INTENSITY_RAMP_RATE]
  · rw [currentIntensity_updates, targetIntensity_starting]
    intro hreach
    have hdeadzone : starting.calibration.intensityDeadzone = 1 / 20 := rfl
    have hpos (deltaTime : Rat) (hmem : deltaTime ∈ List.replicate 25 (1 / 25 : Rat)) : 0 < deltaTime := by
      rw [List.eq_of_mem_replicate hmem]
      norm_num
    obtain ⟨front, deltaTime, rest, hsplit, hlift, _⟩ :=
      (foldl_nextIntensity_zero (by norm_num [hdeadzone]) (by norm_num [hdeadzone]) hpos).mp hreach
    have hmem : deltaTime ∈ List.replicate 25 (1 / 25 : Rat) := by
      rw [hsplit]
      exact List.mem_append_right front List.mem_cons_self
    rw [List.eq_of_mem_replicate hmem, hdeadzone, INTENSITY_RAMP_RATE] at hlift
    norm_num at hlift

end VibrationController
