import Mathlib.Algebra.Order.Ring.Rat
import Mathlib.Tactic.NormNum
import KernelcModerne.Lib.Ramp
import KernelcModerne.Lib.Transition

open Transition Ramp

structure MotorCalibration where
  minFrequency : Rat := 20
  maxFrequency : Rat := 200
  intensityDeadzone : Rat := 1 / 20

/-- The controller, with exact numbers for its `float`s. Times are in seconds. -/
structure VibrationController where
  currentIntensity : Rat := 0
  currentFrequency : Rat := 0
  targetIntensity : Rat := 0
  targetFrequency : Rat := 0
  lastUpdate : Rat
  calibration : MotorCalibration := {}

namespace VibrationController

def constructed (now : Rat) : VibrationController where
  lastUpdate := now

def INTENSITY_RAMP_RATE : Rat := 1
def FREQUENCY_RAMP_RATE : Rat := 50

def interpolate (current target rampRate deltaTime : Rat) : Rat :=
  let diff := target - current
  let maxChange := rampRate * deltaTime
  current + clamp diff (-maxChange) maxChange

def setIntensity (self : VibrationController) (intensity : Rat) : VibrationController :=
  { self with targetIntensity := clamp intensity 0 1 }

def setFrequency (self : VibrationController) (frequency : Rat) : VibrationController :=
  { self with
    targetFrequency := clamp frequency self.calibration.minFrequency self.calibration.maxFrequency }

/-- The intensity below which it is 0. -/
def applyDeadzone (calibration : MotorCalibration) (intensity : Rat) : Rat :=
  if intensity < calibration.intensityDeadzone then 0 else intensity

/-- The frequency within the viable range. -/
def limitFrequency (calibration : MotorCalibration) (frequency : Rat) : Rat :=
  let frequency := if frequency < calibration.minFrequency then calibration.minFrequency else frequency
  if frequency > calibration.maxFrequency then calibration.maxFrequency else frequency

/-- `update()` at the time `now`. -/
def update (self : VibrationController) (now : Rat) : VibrationController :=
  let deltaTime := now - self.lastUpdate
  { self with
    lastUpdate := now
    currentIntensity := applyDeadzone self.calibration
      (interpolate self.currentIntensity self.targetIntensity INTENSITY_RAMP_RATE deltaTime)
    currentFrequency := limitFrequency self.calibration
      (interpolate self.currentFrequency self.targetFrequency FREQUENCY_RAMP_RATE deltaTime) }

def calibrateMotor (self : VibrationController) (minFreq maxFreq deadzone : Rat) : VibrationController :=
  { self with
    calibration := { minFrequency := minFreq, maxFrequency := maxFreq, intensityDeadzone := deadzone } }

def stop (self : VibrationController) (now : Rat) : VibrationController :=
  ((self.setIntensity 0).setFrequency self.calibration.minFrequency).update now

/-- The duration is not used. -/
def pulse (self : VibrationController) (intensity _duration : Rat) : VibrationController :=
  self.setIntensity intensity

def rumble (self : VibrationController) (intensity lowFreq highFreq mix : Rat) : VibrationController :=
  (self.setIntensity intensity).setFrequency (lowFreq * (1 - mix) + highFreq * mix)

inductive Op where
  | setIntensity (intensity : Rat)
  | setFrequency (frequency : Rat)
  | pulse (intensity duration : Rat)
  | rumble (intensity lowFreq highFreq mix : Rat)
  | stop (elapsed : Rat)
  | update (elapsed : Rat)
  | calibrateMotor (minFreq maxFreq deadzone : Rat)

/-- One call; `elapsed` is the time since the last update. -/
def step (self : VibrationController) : Op → Option VibrationController
  | .setIntensity intensity => some (self.setIntensity intensity)
  | .setFrequency frequency => some (self.setFrequency frequency)
  | .pulse intensity duration => some (self.pulse intensity duration)
  | .rumble intensity lowFreq highFreq mix => some (self.rumble intensity lowFreq highFreq mix)
  | .stop elapsed => some (self.stop (self.lastUpdate + elapsed))
  | .update elapsed => some (self.update (self.lastUpdate + elapsed))
  | .calibrateMotor minFreq maxFreq deadzone => some (self.calibrateMotor minFreq maxFreq deadzone)

/-- The clock does not go back, and a calibration has a range and a deadzone. -/
def Op.Allowed : Op → Prop
  | .stop elapsed => 0 ≤ elapsed
  | .update elapsed => 0 ≤ elapsed
  | .calibrateMotor minFreq maxFreq deadzone => minFreq ≤ maxFreq ∧ 0 ≤ deadzone
  | _ => True

def IntensityInRange (self : VibrationController) : Prop :=
  0 ≤ self.currentIntensity ∧ self.currentIntensity ≤ 1

def FrequencyInRange (self : VibrationController) : Prop :=
  self.calibration.minFrequency ≤ self.currentFrequency ∧ self.currentFrequency ≤ self.calibration.maxFrequency

/-- The intensity has gone towards the target and not past it, unless the
deadzone has made it 0. -/
def KeepsToTarget (self after : VibrationController) : Prop :=
  ∃ moved ∈ Set.uIcc self.currentIntensity after.targetIntensity,
    after.currentIntensity = moved ∨ moved < after.calibration.intensityDeadzone ∧ after.currentIntensity = 0

/-- After an update, also that of `stop`, the frequency is in range, and it has
kept to the target of the intensity. -/
def UpdatesWithinLimits (self : VibrationController) (op : Op) (after : VibrationController) : Prop :=
  match op with
  | .stop _ => after.FrequencyInRange ∧ self.KeepsToTarget after
  | .update _ => after.FrequencyInRange ∧ self.KeepsToTarget after
  | _ => True

variable {self : VibrationController} {calibration : MotorCalibration}

theorem interpolate_intensity (current target deltaTime : Rat) :
    interpolate current target INTENSITY_RAMP_RATE deltaTime = approach current target deltaTime := by
  rw [interpolate, INTENSITY_RAMP_RATE, one_mul, approach]

/-- The intensities are from 0 to 1, and the calibration is one that is allowed. -/
structure Valid (controller : VibrationController) : Prop where
  current : controller.currentIntensity ∈ Set.Icc 0 1
  target : controller.targetIntensity ∈ Set.Icc 0 1
  frequencies : controller.calibration.minFrequency ≤ controller.calibration.maxFrequency
  deadzone : 0 ≤ controller.calibration.intensityDeadzone

theorem constructed_valid (now : Rat) : (constructed now).Valid := by
  constructor <;> norm_num [constructed]

theorem Valid.setIntensity (h : self.Valid) (intensity : Rat) : (self.setIntensity intensity).Valid :=
  ⟨h.current, clamp_mem (by norm_num), h.frequencies, h.deadzone⟩

theorem Valid.setFrequency (h : self.Valid) (frequency : Rat) : (self.setFrequency frequency).Valid :=
  ⟨h.current, h.target, h.frequencies, h.deadzone⟩

theorem limitFrequency_mem (h : calibration.minFrequency ≤ calibration.maxFrequency) (frequency : Rat) :
    calibration.minFrequency ≤ limitFrequency calibration frequency ∧
      limitFrequency calibration frequency ≤ calibration.maxFrequency := by
  unfold limitFrequency
  split
  · rw [if_neg (not_lt.mpr h)]
    exact ⟨le_refl _, h⟩
  · next hlow =>
    dsimp only
    split
    · exact ⟨h, le_refl _⟩
    · next hhigh => exact ⟨not_lt.mp hlow, not_lt.mp hhigh⟩

theorem update_keepsToTarget {now : Rat} (hnow : self.lastUpdate ≤ now) : self.KeepsToTarget (self.update now) := by
  refine ⟨approach self.currentIntensity self.targetIntensity (now - self.lastUpdate),
    approach_mem_uIcc _ _ (sub_nonneg.mpr hnow), ?_⟩
  simp only [update, interpolate_intensity, applyDeadzone]
  split
  · next hlow => exact .inr ⟨hlow, rfl⟩
  · exact .inl rfl

theorem Valid.update (h : self.Valid) {now : Rat} (hnow : self.lastUpdate ≤ now) : (self.update now).Valid := by
  refine ⟨?_, h.target, h.frequencies, h.deadzone⟩
  obtain ⟨moved, hmoved, hsame | ⟨_, hzero⟩⟩ := update_keepsToTarget hnow
  · rw [hsame]
    exact Set.uIcc_subset_Icc h.current h.target hmoved
  · rw [hzero]
    exact ⟨le_refl 0, zero_le_one⟩

/-- An update of a valid controller. -/
theorem Valid.update_withinLimits (h : self.Valid) {now : Rat} (hnow : self.lastUpdate ≤ now) :
    (self.update now).FrequencyInRange ∧ self.KeepsToTarget (self.update now) :=
  ⟨limitFrequency_mem h.frequencies _, update_keepsToTarget hnow⟩

theorem Valid.step (h : self.Valid) {op : Op} {after : VibrationController} (hallowed : op.Allowed)
    (hstep : self.step op = some after) : self.UpdatesWithinLimits op after ∧ after.Valid := by
  cases op with
  | setIntensity intensity =>
    obtain rfl := Option.some.inj hstep
    exact ⟨trivial, h.setIntensity intensity⟩
  | setFrequency frequency =>
    obtain rfl := Option.some.inj hstep
    exact ⟨trivial, h.setFrequency frequency⟩
  | pulse intensity duration =>
    obtain rfl := Option.some.inj hstep
    exact ⟨trivial, h.setIntensity intensity⟩
  | rumble intensity lowFreq highFreq mix =>
    obtain rfl := Option.some.inj hstep
    exact ⟨trivial, (h.setIntensity intensity).setFrequency _⟩
  | stop elapsed =>
    obtain rfl := Option.some.inj hstep
    have hset := (h.setIntensity 0).setFrequency self.calibration.minFrequency
    have hnow := le_add_of_nonneg_right (a := self.lastUpdate) hallowed
    exact ⟨hset.update_withinLimits hnow, hset.update hnow⟩
  | update elapsed =>
    obtain rfl := Option.some.inj hstep
    have hnow := le_add_of_nonneg_right (a := self.lastUpdate) hallowed
    exact ⟨h.update_withinLimits hnow, h.update hnow⟩
  | calibrateMotor minFreq maxFreq deadzone =>
    obtain rfl := Option.some.inj hstep
    obtain ⟨hfrequencies, hdeadzone⟩ := hallowed
    exact ⟨trivial, h.current, h.target, hfrequencies, hdeadzone⟩

/-- In every run the intensity stays from 0 to 1, and the updates keep the
frequency in range and the intensity from passing its target. -/
theorem output_withinLimits (now : Rat) {ops : List Op} (hops : ∀ op ∈ ops, op.Allowed) :
    Always step IntensityInRange (constructed now) ops ∧ Along step UpdatesWithinLimits (constructed now) ops := by
  have hguarded : Guarded step (fun _ op => op.Allowed) (constructed now) ops := guarded_of_forall hops _
  have hvalid : Always step Valid (constructed now) ops :=
    always_of_guarded (fun _ _ _ h hallowed hstep => (h.step hallowed hstep).2) ops (constructed_valid now) hguarded
  constructor
  · exact hvalid.imp fun _ h => h.current
  · apply along_of_guarded Valid ?_ ops (constructed_valid now) hguarded
    intro self op after h hallowed hstep
    exact h.step hallowed hstep

/-- A calibration between the setting of a frequency and an update, and a stop. -/
theorem output_withinLimits_recalibrated :
    Always step IntensityInRange (constructed 0)
        [.rumble 1 40 160 (1 / 2), .calibrateMotor 120 150 (1 / 10), .update 2, .stop (1 / 2)] ∧
      Along step UpdatesWithinLimits (constructed 0)
        [.rumble 1 40 160 (1 / 2), .calibrateMotor 120 150 (1 / 10), .update 2, .stop (1 / 2)] := by
  apply output_withinLimits
  simp only [List.forall_mem_cons, Op.Allowed]
  norm_num

end VibrationController
