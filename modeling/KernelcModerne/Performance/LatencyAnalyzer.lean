import Mathlib.Algebra.Order.Field.Rat
import Mathlib.Data.List.AList
import Mathlib.Data.List.Sort
import KernelcModerne.Lib.Locking
import KernelcModerne.Lib.Transition

open Transition

namespace Kernel.Performance

/-- Times are in microseconds, latencies in milliseconds. -/
structure LatencyMeasurement where
  timestamp : Int
  latency : Rat
  component : String
  operation : String

/-- What the report logs of one component. -/
structure ReportEntry where
  component : String
  averageLatency : Rat
  maxLatency : Rat
  percentile95 : Rat
  percentile99 : Rat

/-- The analyzer. `warnings` and `reports` record what it logs. -/
structure LatencyAnalyzer where
  initialized : Bool
  measurements : AList fun _ : String => Int
  history : AList fun _ : String => List LatencyMeasurement
  thresholds : AList fun _ : String => Rat
  warnings : List (String × Rat)
  reports : List ReportEntry

namespace LatencyAnalyzer

open Locking

def constructed : LatencyAnalyzer where
  initialized := false
  measurements := ∅
  history := ∅
  thresholds := ∅
  warnings := []
  reports := []

def cleared (self : LatencyAnalyzer) (initialized : Bool) : LatencyAnalyzer :=
  { self with initialized, measurements := ∅, history := ∅, thresholds := ∅ }

/-- `initialize()`. -/
def initializeAnalyzer : Locking LatencyAnalyzer Bool :=
  lockGuard do
    if (← get).initialized then return true
    modify fun self => self.cleared true
    return true

def shutdown : Locking LatencyAnalyzer PUnit :=
  lockGuard do
    if !(← get).initialized then return
    modify fun self => self.cleared false

def generateMeasurementKey (component operation : String) : String := component ++ "::" ++ operation

/-- `now` is what the clock answers. -/
def startMeasurement (component operation : String) (now : Int) : Locking LatencyAnalyzer PUnit := do
  if !(← get).initialized then return
  lockGuard do
    let key := generateMeasurementKey component operation
    modify fun self => { self with measurements := self.measurements.insert key now }

/-- Takes no lock. -/
def isLatencyExceeded (component : String) : Locking LatencyAnalyzer Bool := do
  let self ← get
  match self.thresholds.lookup component with
  | none => return false
  | some threshold =>
    match (self.history.lookup component).bind List.getLast? with
    | none => return false
    | some measurement => return decide (measurement.latency > threshold)

/-- `now` and `later` are what the clock answers, for the latency and for the
time stamp. -/
def endMeasurement (component operation : String) (now later : Int) : Locking LatencyAnalyzer Rat := do
  if !(← get).initialized then return 0
  lockGuard do
    let key := generateMeasurementKey component operation
    match (← get).measurements.lookup key with
    | none => return 0
    | some start =>
      let latency : Rat := (now - start : Int) / 1000
      let measurement : LatencyMeasurement := { timestamp := later, latency, component, operation }
      modify fun self =>
        { self with
          history :=
            self.history.insert component ((self.history.lookup component).getD [] ++ [measurement])
          measurements := self.measurements.erase key }
      if ← isLatencyExceeded component then
        modify fun self => { self with warnings := self.warnings ++ [(component, latency)] }
      return latency

/-- The latencies that the history holds of a component. -/
def latencies (self : LatencyAnalyzer) (component : String) : List Rat :=
  ((self.history.lookup component).getD []).map LatencyMeasurement.latency

def getAverageLatency (component : String) : Locking LatencyAnalyzer Rat :=
  lockGuard do
    let latencies := (← get).latencies component
    if latencies.isEmpty then return 0
    return latencies.foldl (· + ·) 0 / latencies.length

def getMaxLatency (component : String) : Locking LatencyAnalyzer Rat :=
  lockGuard do
    let latencies := (← get).latencies component
    if latencies.isEmpty then return 0
    return latencies.foldl max 0

def setLatencyThreshold (component : String) (threshold : Rat) : Locking LatencyAnalyzer PUnit :=
  lockGuard do
    modify fun self => { self with thresholds := self.thresholds.insert component threshold }

/-- The index stays within the latencies up to the percentile 100. -/
def getPercentile (component : String) (percentile : Rat) : Locking LatencyAnalyzer Rat :=
  lockGuard do
    let latencies := (← get).latencies component
    if latencies.isEmpty then return 0
    let index := (percentile * (latencies.length - 1) / 100).floor.toNat
    return (latencies.insertionSort (· ≤ ·)).getD index 0

/-- The body of the loop of the report. -/
def reportComponent (component : String) : Locking LatencyAnalyzer PUnit := do
  let averageLatency ← getAverageLatency component
  let maxLatency ← getMaxLatency component
  let percentile95 ← getPercentile component 95
  let percentile99 ← getPercentile component 99
  modify fun self =>
    { self with
      reports := self.reports ++ [{ component, averageLatency, maxLatency, percentile95, percentile99 }] }

def generateLatencyReport : Locking LatencyAnalyzer PUnit :=
  lockGuard do
    let self ← get
    self.history.keys.forM reportComponent

inductive Op where
  | initializeAnalyzer
  | shutdown
  | startMeasurement (component operation : String) (now : Int)
  | endMeasurement (component operation : String) (now later : Int)
  | getAverageLatency (component : String)
  | getMaxLatency (component : String)
  | getPercentile (component : String) (percentile : Rat)
  | setLatencyThreshold (component : String) (threshold : Rat)
  | isLatencyExceeded (component : String)
  | generateLatencyReport

def Op.call : Op → Locking LatencyAnalyzer PUnit
  | .initializeAnalyzer => discard LatencyAnalyzer.initializeAnalyzer
  | .shutdown => LatencyAnalyzer.shutdown
  | .startMeasurement component operation now => LatencyAnalyzer.startMeasurement component operation now
  | .endMeasurement component operation now later =>
    discard (LatencyAnalyzer.endMeasurement component operation now later)
  | .getAverageLatency component => discard (LatencyAnalyzer.getAverageLatency component)
  | .getMaxLatency component => discard (LatencyAnalyzer.getMaxLatency component)
  | .getPercentile component percentile => discard (LatencyAnalyzer.getPercentile component percentile)
  | .setLatencyThreshold component threshold => LatencyAnalyzer.setLatencyThreshold component threshold
  | .isLatencyExceeded component => discard (LatencyAnalyzer.isLatencyExceeded component)
  | .generateLatencyReport => LatencyAnalyzer.generateLatencyReport

/-- A call from outside does not hold the mutex yet. -/
def Completes (self : LatencyAnalyzer) (op : Op) : Prop := (op.call.runAt false self).isSome

/-- One call. One that does not complete leaves no state of its own. -/
def step (self : LatencyAnalyzer) (op : Op) : Option LatencyAnalyzer :=
  match op.call.runAt false self with
  | some (_, after) => some after
  | none => some self

/-- The report is asked for only without a history. -/
def ReportsNothing (self : LatencyAnalyzer) (op : Op) : Prop :=
  op = .generateLatencyReport → self.history.keys = []

theorem ends_initializeAnalyzer : Ends initializeAnalyzer false := by
  refine .lockGuard (.bind .get fun self => ?_)
  split
  · exact .pure true
  · exact .bind (.modify _) fun _ => .pure true

theorem ends_shutdown : Ends shutdown false := by
  refine .lockGuard (.bind .get fun self => ?_)
  split
  · exact .pure _
  · exact .modify _

theorem ends_startMeasurement (component operation : String) (now : Int) :
    Ends (startMeasurement component operation now) false := by
  refine .bind .get fun self => ?_
  split
  · exact .pure _
  · exact .lockGuard (.modify _)

/-- It ends whether the caller holds the mutex or not. -/
theorem ends_isLatencyExceeded (component : String) (held : Bool) :
    Ends (isLatencyExceeded component) held := by
  refine .bind .get fun self => ?_
  split
  · exact .pure _
  · split
    · exact .pure _
    · exact .pure _

theorem ends_endMeasurement (component operation : String) (now later : Int) :
    Ends (endMeasurement component operation now later) false := by
  refine .bind .get fun self => ?_
  split
  · exact .pure _
  · refine .lockGuard (.bind .get fun self => ?_)
    split
    · exact .pure _
    · refine .bind (.modify _) fun _ => .bind (ends_isLatencyExceeded component true) fun exceeded => ?_
      split
      · exact .bind (.modify _) fun _ => .pure _
      · exact .pure _

/-- The readers of the history lock the mutex and end. -/
theorem ends_getAverageLatency (component : String) : Ends (getAverageLatency component) false := by
  refine .lockGuard (.bind .get fun self => ?_)
  dsimp only
  split
  · exact .pure _
  · exact .pure _

theorem ends_getMaxLatency (component : String) : Ends (getMaxLatency component) false := by
  refine .lockGuard (.bind .get fun self => ?_)
  dsimp only
  split
  · exact .pure _
  · exact .pure _

theorem ends_getPercentile (component : String) (percentile : Rat) :
    Ends (getPercentile component percentile) false := by
  refine .lockGuard (.bind .get fun self => ?_)
  dsimp only
  split
  · exact .pure _
  · exact .pure _

/-- The first reader that the loop calls locks the mutex again. -/
theorem blocks_reportComponent (component : String) : Blocks (reportComponent component) true :=
  .bind (.lockGuard _) _

theorem completes_generateLatencyReport_iff (self : LatencyAnalyzer) :
    self.Completes .generateLatencyReport ↔ self.history.keys = [] :=
  runAt_forM_isSome_iff blocks_reportComponent self.history.keys self

/-- A call completes exactly when it is not a report on a history. -/
theorem completes_iff (self : LatencyAnalyzer) (op : Op) : self.Completes op ↔ self.ReportsNothing op := by
  cases op with
  | generateLatencyReport =>
    rw [completes_generateLatencyReport_iff]
    exact ⟨fun h _ => h, fun h => h rfl⟩
  | initializeAnalyzer => exact iff_of_true (ends_initializeAnalyzer.discard self) (by simp [ReportsNothing])
  | shutdown => exact iff_of_true (ends_shutdown self) (by simp [ReportsNothing])
  | startMeasurement component operation now =>
    exact iff_of_true (ends_startMeasurement component operation now self) (by simp [ReportsNothing])
  | endMeasurement component operation now later =>
    exact iff_of_true ((ends_endMeasurement component operation now later).discard self) (by simp [ReportsNothing])
  | getAverageLatency component =>
    exact iff_of_true ((ends_getAverageLatency component).discard self) (by simp [ReportsNothing])
  | getMaxLatency component =>
    exact iff_of_true ((ends_getMaxLatency component).discard self) (by simp [ReportsNothing])
  | getPercentile component percentile =>
    exact iff_of_true ((ends_getPercentile component percentile).discard self) (by simp [ReportsNothing])
  | setLatencyThreshold component threshold =>
    have hends : Ends (setLatencyThreshold component threshold) false := .lockGuard (.modify _)
    exact iff_of_true (hends self) (by simp [ReportsNothing])
  | isLatencyExceeded component =>
    exact iff_of_true ((ends_isLatencyExceeded component false).discard self) (by simp [ReportsNothing])

/-- All calls of a run complete exactly when no report is asked for while there
is a history. -/
theorem calls_complete_iff (ops : List Op) :
    Guarded step Completes constructed ops ↔ Guarded step ReportsNothing constructed ops :=
  along_congr (fun self op _ _ => self.completes_iff op) ops constructed

/-- A report on one measurement. -/
theorem report_does_not_complete :
    ¬ Guarded step Completes constructed
      [.initializeAnalyzer, .startMeasurement "IO" "Operation" 0, .endMeasurement "IO" "Operation" 20 20,
        .generateLatencyReport] := by
  intro h
  obtain ⟨_, h⟩ := h _ rfl
  obtain ⟨_, h⟩ := h _ rfl
  obtain ⟨_, h⟩ := h _ rfl
  obtain ⟨hcompletes, _⟩ := h _ rfl
  rw [completes_generateLatencyReport_iff] at hcompletes
  cases hcompletes

end LatencyAnalyzer

end Kernel.Performance
