import Mathlib.Algebra.Order.Field.Rat
import Mathlib.Data.List.AList
import KernelcModerne.Lib.AListTotal
import KernelcModerne.Lib.Locking
import KernelcModerne.Lib.Transition

open Transition

namespace Kernel.Performance

/-- Times are in nanoseconds. -/
structure MetricSample where
  timestamp : Int
  value : Rat
  unit : String

structure MetricStats where
  min : Rat
  max : Rat
  average : Rat
  standardDeviation : Rat
  samples : Nat

/-- The metrics. `alerts` records what they log. -/
structure PerformanceMetrics where
  initialized : Bool
  metrics : AList fun _ : String => List MetricSample
  timers : AList fun _ : String => Int
  thresholds : AList fun _ : String => Rat
  alerts : List String

namespace PerformanceMetrics

open Locking

def constructed : PerformanceMetrics where
  initialized := false
  metrics := ∅
  timers := ∅
  thresholds := ∅
  alerts := []

def cleared (self : PerformanceMetrics) (initialized : Bool) : PerformanceMetrics :=
  { self with initialized, metrics := ∅, timers := ∅, thresholds := ∅ }

/-- `initialize()`. -/
def initializeMetrics : Locking PerformanceMetrics Bool :=
  lockGuard do
    if (← get).initialized then return true
    modify fun self => self.cleared true
    return true

def shutdown : Locking PerformanceMetrics PUnit :=
  lockGuard do
    if !(← get).initialized then return
    modify fun self => self.cleared false

/-- Takes no lock. -/
def checkThreshold (metric : String) : Locking PerformanceMetrics Bool := do
  let self ← get
  match self.thresholds.lookup metric with
  | none => return false
  | some threshold =>
    match (self.metrics.lookup metric).bind List.getLast? with
    | none => return false
    | some sample => return decide (sample.value > threshold)

/-- `now` is what the clock answers. -/
def recordMetric (name : String) (value : Rat) (unit : String) (now : Int) :
    Locking PerformanceMetrics PUnit := do
  if !(← get).initialized then return
  lockGuard do
    let sample : MetricSample := { timestamp := now, value, unit }
    modify fun self =>
      { self with metrics := self.metrics.insert name ((self.metrics.lookup name).getD [] ++ [sample]) }
    if ← checkThreshold name then
      modify fun self => { self with alerts := self.alerts ++ [name] }

def startTimer (name : String) (now : Int) : Locking PerformanceMetrics PUnit := do
  if !(← get).initialized then return
  lockGuard do
    modify fun self => { self with timers := self.timers.insert name now }

/-- `now` and `later` are what the clock answers, for the duration and for the
time stamp. -/
def stopTimer (name : String) (now later : Int) : Locking PerformanceMetrics Rat := do
  if !(← get).initialized then return 0
  lockGuard do
    match (← get).timers.lookup name with
    | none => return 0
    | some start =>
      let milliseconds : Rat := ((now - start).tdiv 1000000 : Int)
      recordMetric name milliseconds "ms" later
      modify fun self => { self with timers := self.timers.erase name }
      return milliseconds

def calculateStats (sqrt : Rat → Rat) : List MetricSample → MetricStats
  | [] => { min := 0, max := 0, average := 0, standardDeviation := 0, samples := 0 }
  | first :: rest =>
    let values := (first :: rest).map MetricSample.value
    let average : Rat := values.foldl (· + ·) 0 / values.length
    let sumSquaredDiff : Rat := values.foldl (fun sum value => sum + (value - average) * (value - average)) 0
    { min := values.foldl min first.value
      max := values.foldl max first.value
      average
      standardDeviation := sqrt (sumSquaredDiff / values.length)
      samples := values.length }

def getMetricStats (sqrt : Rat → Rat) (name : String) : Locking PerformanceMetrics MetricStats :=
  lockGuard do
    match (← get).metrics.lookup name with
    | none => return { min := 0, max := 0, average := 0, standardDeviation := 0, samples := 0 }
    | some samples => return calculateStats sqrt samples

def setThreshold (metric : String) (threshold : Rat) : Locking PerformanceMetrics PUnit :=
  lockGuard do
    modify fun self => { self with thresholds := self.thresholds.insert metric threshold }

def getAllMetrics : Locking PerformanceMetrics (List (String × Rat)) :=
  lockGuard do
    return (← get).metrics.entries.filterMap fun entry =>
      entry.2.getLast?.map fun sample => (entry.1, sample.value)

inductive Op where
  | initializeMetrics
  | shutdown
  | recordMetric (name : String) (value : Rat) (unit : String) (now : Int)
  | startTimer (name : String) (now : Int)
  | stopTimer (name : String) (now later : Int)
  | getMetricStats (name : String)
  | setThreshold (metric : String) (threshold : Rat)
  | getAllMetrics

def Op.call (sqrt : Rat → Rat) : Op → Locking PerformanceMetrics PUnit
  | .initializeMetrics => discard PerformanceMetrics.initializeMetrics
  | .shutdown => PerformanceMetrics.shutdown
  | .recordMetric name value unit now => PerformanceMetrics.recordMetric name value unit now
  | .startTimer name now => PerformanceMetrics.startTimer name now
  | .stopTimer name now later => discard (PerformanceMetrics.stopTimer name now later)
  | .getMetricStats name => discard (PerformanceMetrics.getMetricStats sqrt name)
  | .setThreshold metric threshold => PerformanceMetrics.setThreshold metric threshold
  | .getAllMetrics => discard PerformanceMetrics.getAllMetrics

/-- A call from outside does not hold the mutex yet. -/
def Completes (sqrt : Rat → Rat) (self : PerformanceMetrics) (op : Op) : Prop :=
  ((op.call sqrt).runAt false self).isSome

/-- One call. One that does not complete leaves no state of its own. -/
def step (sqrt : Rat → Rat) (self : PerformanceMetrics) (op : Op) : Option PerformanceMetrics :=
  match (op.call sqrt).runAt false self with
  | some (_, after) => some after
  | none => some self

/-- A timer that runs when it is stopped. -/
def FindsTimer (self : PerformanceMetrics) (name : String) : Prop :=
  self.initialized = true ∧ name ∈ self.timers

/-- To stop a timer that runs completes, appends one sample to its metric and
removes the timer. -/
def StopsTimer (self : PerformanceMetrics) : Op → Prop
  | .stopTimer name now later => self.FindsTimer name → ∃ milliseconds after sample,
    (PerformanceMetrics.stopTimer name now later).runAt false self = some (milliseconds, after) ∧
      after.metrics = self.metrics.insert name ((self.metrics.lookup name).getD [] ++ [sample]) ∧
      after.timers = self.timers.erase name
  | _ => True

/-- The call completes, and stops a timer as it should. -/
def Sound (sqrt : Rat → Rat) (self : PerformanceMetrics) (op : Op) : Prop :=
  self.Completes sqrt op ∧ self.StopsTimer op

/-- No timer is stopped while it runs. -/
def StopsNothing (self : PerformanceMetrics) : Op → Prop
  | .stopTimer name _ _ => ¬ self.FindsTimer name
  | _ => True

theorem ends_initializeMetrics : Ends initializeMetrics false := by
  refine .lockGuard (.bind .get fun self => ?_)
  split
  · exact .pure true
  · exact .bind (.modify _) fun _ => .pure true

theorem ends_shutdown : Ends shutdown false := by
  refine .lockGuard (.bind .get fun self => ?_)
  split
  · exact .pure _
  · exact .modify _

/-- It ends whether the caller holds the mutex or not. -/
theorem ends_checkThreshold (metric : String) (held : Bool) : Ends (checkThreshold metric) held := by
  refine .bind .get fun self => ?_
  split
  · exact .pure _
  · split
    · exact .pure _
    · exact .pure _

theorem ends_recordMetric (name : String) (value : Rat) (unit : String) (now : Int) :
    Ends (recordMetric name value unit now) false := by
  refine .bind .get fun self => ?_
  split
  · exact .pure _
  · refine .lockGuard (.bind (.modify _) fun _ => .bind (ends_checkThreshold name true) fun exceeded => ?_)
    split
    · exact .modify _
    · exact .pure _

/-- Once the metrics are initialized, it locks the mutex that its caller holds. -/
theorem recordMetric_blocks {self : PerformanceMetrics} (hinit : self.initialized = true) (name : String)
    (value : Rat) (unit : String) (now : Int) : (recordMetric name value unit now).runAt true self = none := by
  simp [recordMetric, runAt_bind, hinit]

theorem ends_startTimer (name : String) (now : Int) : Ends (startTimer name now) false := by
  refine .bind .get fun self => ?_
  split
  · exact .pure _
  · exact .lockGuard (.modify _)

theorem ends_getMetricStats (sqrt : Rat → Rat) (name : String) : Ends (getMetricStats sqrt name) false := by
  refine .lockGuard (.bind .get fun self => ?_)
  split
  · exact .pure _
  · exact .pure _

theorem ends_getAllMetrics : Ends getAllMetrics false := .lockGuard (.bind .get fun _ => .pure _)

/-- The call records the duration under the lock that it holds. -/
theorem stopTimer_blocks {self : PerformanceMetrics} {name : String} (h : self.FindsTimer name)
    (now later : Int) : (stopTimer name now later).runAt false self = none := by
  obtain ⟨hinit, hmem⟩ := h
  obtain ⟨start, hstart⟩ := AList.exists_lookup_of_mem hmem
  simp [stopTimer, runAt_bind, hinit, hstart, recordMetric_blocks hinit]

theorem stopTimer_finds_none {self : PerformanceMetrics} {name : String} (h : ¬ self.FindsTimer name)
    (now later : Int) : (stopTimer name now later).runAt false self = some (0, self) := by
  cases hinit : self.initialized with
  | false => simp [stopTimer, runAt_bind, hinit]
  | true =>
    have hnone : self.timers.lookup name = none := by
      rw [AList.lookup_eq_none]
      exact fun hmem => h ⟨hinit, hmem⟩
    simp [stopTimer, runAt_bind, hinit, hnone]

theorem sound_stopTimer_iff (sqrt : Rat → Rat) (self : PerformanceMetrics) (name : String) (now later : Int) :
    self.Sound sqrt (.stopTimer name now later) ↔ ¬ self.FindsTimer name := by
  have hcompletes : self.Completes sqrt (.stopTimer name now later) ↔
      ((stopTimer name now later).runAt false self).isSome := by
    rw [Completes, Op.call, runAt_discard_isSome]
  constructor
  · rintro ⟨hsome, _⟩ hfinds
    rw [hcompletes, stopTimer_blocks hfinds] at hsome
    cases hsome
  · intro hfinds
    refine ⟨?_, fun h => absurd h hfinds⟩
    rw [hcompletes, stopTimer_finds_none hfinds]
    rfl

/-- A call is as it should be exactly when it stops no timer that runs. -/
theorem sound_iff (sqrt : Rat → Rat) (self : PerformanceMetrics) (op : Op) :
    self.Sound sqrt op ↔ self.StopsNothing op := by
  cases op with
  | stopTimer name now later => exact sound_stopTimer_iff sqrt self name now later
  | initializeMetrics => exact iff_of_true ⟨ends_initializeMetrics.discard self, trivial⟩ trivial
  | shutdown => exact iff_of_true ⟨ends_shutdown self, trivial⟩ trivial
  | recordMetric name value unit now =>
    exact iff_of_true ⟨ends_recordMetric name value unit now self, trivial⟩ trivial
  | startTimer name now => exact iff_of_true ⟨ends_startTimer name now self, trivial⟩ trivial
  | getMetricStats name => exact iff_of_true ⟨(ends_getMetricStats sqrt name).discard self, trivial⟩ trivial
  | setThreshold metric threshold =>
    have hends : Ends (setThreshold metric threshold) false := .lockGuard (.modify _)
    exact iff_of_true ⟨hends self, trivial⟩ trivial
  | getAllMetrics => exact iff_of_true ⟨ends_getAllMetrics.discard self, trivial⟩ trivial

/-- In every run the calls complete and the timers are stopped as they should be
exactly when no timer is stopped while it runs. -/
theorem calls_sound_iff (sqrt : Rat → Rat) (ops : List Op) :
    Guarded (step sqrt) (Sound sqrt) constructed ops ↔ Guarded (step sqrt) StopsNothing constructed ops :=
  along_congr (fun self op _ _ => self.sound_iff sqrt op) ops constructed

/-- The first timer that is stopped. -/
theorem stopTimer_does_not_complete :
    ¬ Guarded (step id) (Sound id) constructed
      [.initializeMetrics, .startTimer "frame" 0, .stopTimer "frame" 16000000 16000000] := by
  intro h
  obtain ⟨_, h⟩ := h _ rfl
  obtain ⟨_, h⟩ := h _ rfl
  obtain ⟨hsound, _⟩ := h _ rfl
  rw [sound_stopTimer_iff] at hsound
  exact hsound ⟨rfl, by decide⟩

end PerformanceMetrics

end Kernel.Performance
