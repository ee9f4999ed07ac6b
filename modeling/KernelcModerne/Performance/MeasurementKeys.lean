import KernelcModerne.Lib.Separators
import KernelcModerne.Performance.LatencyAnalyzer

open Transition Locking Separators

namespace Kernel.Performance.LatencyAnalyzer

/-- The start time of the measurement that `endMeasurement` finds, if it finds
one. -/
def running (component operation : String) (self : LatencyAnalyzer) : Option Int :=
  self.measurements.lookup (generateMeasurementKey component operation)

/-- The call starts or ends a measurement of the pair. -/
def Op.Measures (component operation : String) (op : Op) : Prop :=
  (∃ now, op = .startMeasurement component operation now) ∨
    ∃ now later, op = .endMeasurement component operation now later

/-- A call that measures the second pair leaves the first one's measurement as
it is. -/
def Undisturbed (component operation component' operation' : String) (self : LatencyAnalyzer) (op : Op)
    (after : LatencyAnalyzer) : Prop :=
  op.Measures component' operation' → after.running component operation = self.running component operation

variable {component operation component' operation' : String}

theorem leaves_startMeasurement
    (hkey : generateMeasurementKey component operation ≠ generateMeasurementKey component' operation')
    (now : Int) :
    Leaves (running component operation) (startMeasurement component' operation' now) false := by
  refine .bind .get fun self => ?_
  split
  · exact .pure _
  · exact .lockGuard (.modify fun self => AList.lookup_insert_ne hkey)

theorem leaves_isLatencyExceeded (held : Bool) :
    Leaves (running component operation) (isLatencyExceeded component') held := by
  refine .bind .get fun self => ?_
  split
  · exact .pure _
  · split
    · exact .pure _
    · exact .pure _

theorem leaves_endMeasurement
    (hkey : generateMeasurementKey component operation ≠ generateMeasurementKey component' operation')
    (now later : Int) :
    Leaves (running component operation) (endMeasurement component' operation' now later) false := by
  refine .bind .get fun self => ?_
  split
  · exact .pure _
  · refine .lockGuard (.bind .get fun self => ?_)
    split
    · exact .pure _
    · refine .bind (.modify fun self => AList.lookup_erase_ne hkey) fun _ => ?_
      refine .bind (leaves_isLatencyExceeded true) fun exceeded => ?_
      split
      · exact .bind (.modify fun _ => rfl) fun _ => .pure _
      · exact .pure _

/-- A call that leaves something does so as a step. -/
theorem step_leaves {γ : Type} {φ : LatencyAnalyzer → γ} {self after : LatencyAnalyzer} (op : Op)
    (h : Leaves φ op.call false) (hstep : self.step op = some after) : φ after = φ self := by
  unfold step at hstep
  cases hrun : op.call.runAt false self with
  | none =>
    rw [hrun, Option.some.injEq] at hstep
    rw [hstep]
  | some result =>
    rw [hrun, Option.some.injEq] at hstep
    exact hstep ▸ h self result hrun

theorem undisturbed_of_key_ne
    (hkey : generateMeasurementKey component operation ≠ generateMeasurementKey component' operation')
    {self after : LatencyAnalyzer} {op : Op} (hstep : self.step op = some after) :
    Undisturbed component operation component' operation' self op after := by
  rintro (⟨now, rfl⟩ | ⟨now, later, rfl⟩)
  · exact step_leaves (.startMeasurement _ _ now) (leaves_startMeasurement hkey now) hstep
  · exact step_leaves (.endMeasurement _ _ now later) (leaves_endMeasurement hkey now later).discard hstep

/-- A measurement that starts under the key of another one starts that too. -/
theorem disturbed_of_key_eq
    (hkey : generateMeasurementKey component operation = generateMeasurementKey component' operation') :
    ¬ Along step (Undisturbed component operation component' operation') constructed
      [.initializeAnalyzer, .startMeasurement component' operation' 0] := by
  intro h
  obtain ⟨_, h⟩ := h _ rfl
  obtain ⟨hsame, _⟩ := h _ rfl
  have hstarted := hsame (.inl ⟨0, rfl⟩)
  have hnow :
      (constructed.measurements.insert (generateMeasurementKey component' operation') (0 : Int)).lookup
        (generateMeasurementKey component' operation') = some 0 :=
    AList.lookup_insert _
  have hbefore : constructed.measurements.lookup (generateMeasurementKey component' operation') = none :=
    AList.lookup_empty _
  unfold running at hstarted
  rw [hkey] at hstarted
  exact absurd (hnow.symm.trans (hstarted.trans hbefore)) (by simp)

/-- In no run does the measuring of one pair disturb that of another, exactly
where the pairs differ and none of them splits the joined text of the other
later. -/
theorem along_undisturbed_iff (component operation component' operation' : String) :
    (∀ ops, Along step (Undisturbed component operation component' operation') constructed ops) ↔
      ¬ (component = component' ∧ operation = operation') ∧
        ¬ SplitsLater component operation component' operation' ∧
        ¬ SplitsLater component' operation' component operation := by
  rw [← not_or, ← not_or, ← joined_eq_iff]
  constructor
  · exact fun h hkey => disturbed_of_key_eq hkey (h _)
  · intro hkey ops
    apply along_of_forall
    intro self op after hstep
    exact undisturbed_of_key_ne hkey hstep

/-- A component whose name holds the separator. -/
theorem nested_component_disturbs :
    ("IO", "Disk::Read") ≠ ("IO::Disk", "Read") ∧
      ¬ Along step (Undisturbed "IO" "Disk::Read" "IO::Disk" "Read") constructed
        [.initializeAnalyzer, .startMeasurement "IO::Disk" "Read" 0] :=
  ⟨by decide, disturbed_of_key_eq rfl⟩

end Kernel.Performance.LatencyAnalyzer
