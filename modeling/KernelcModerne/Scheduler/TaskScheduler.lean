import Mathlib.Data.List.AList
import KernelcModerne.Lib.PriorityQueue
import KernelcModerne.Lib.Transition

open Transition

namespace Kernel

/-- A `std::shared_ptr` to a process, with the process's pid. -/
structure TaskProcess where
  object : Nat
  pid : Nat
  deriving DecidableEq

/-- The scheduler's processes. `std::map` is walked in the order of its keys. -/
structure TaskScheduler where
  readyQueue : List TaskProcess
  processes : AList fun _ : Nat => TaskProcess
  currentProcess : Option TaskProcess
  running : Bool

namespace TaskScheduler

/-- The scheduler after `initialize()`. -/
def initialized : TaskScheduler where
  readyQueue := []
  processes := ∅
  currentProcess := none
  running := false

variable (queue : PriorityQueue TaskProcess)

def addProcess (self : TaskScheduler) (process : TaskProcess) : TaskScheduler :=
  { self with
    processes := self.processes.insert process.pid process
    readyQueue := queue.push self.readyQueue process }

/-- The values of `processes`, by ascending pid. -/
def registered (self : TaskScheduler) : List TaskProcess :=
  (self.processes.entries.insertionSort fun a b => a.1 ≤ b.1).map fun entry => entry.2

def rebuildReadyQueue (self : TaskScheduler) : TaskScheduler :=
  { self with readyQueue := queue.ofList self.registered }

def removeProcess (self : TaskScheduler) (pid : Nat) : TaskScheduler :=
  { self with processes := self.processes.erase pid }.rebuildReadyQueue queue

/-- The current process is saved and the next one restored; both act on the
processes' contexts only. -/
def contextSwitch (self : TaskScheduler) (next : TaskProcess) : TaskScheduler :=
  { self with currentProcess := some next }

def switchContext (self : TaskScheduler) : TaskScheduler :=
  match queue.pop self.readyQueue with
  | some (next, readyQueue) => { self with readyQueue }.contextSwitch next
  | none => self

/-- `schedule()`: the loop runs for as long as `running` is set, which nothing
in it clears, so it returns only when `running` is not set. -/
def schedule (self : TaskScheduler) : Option TaskScheduler :=
  if self.running then none else some self

def yield (self : TaskScheduler) : Option TaskScheduler :=
  match self.currentProcess with
  | some current => { self with readyQueue := queue.push self.readyQueue current }.schedule
  | none => self.schedule

inductive Op where
  | addProcess (process : TaskProcess)
  | removeProcess (pid : Nat)
  | yield
  | switchContext

/-- One call; `addProcess` is called for a pid that is not registered. -/
def step (self : TaskScheduler) : Op → Option TaskScheduler
  | .addProcess process =>
    if process.pid ∈ self.processes then none else some (self.addProcess queue process)
  | .removeProcess pid => some (self.removeProcess queue pid)
  | .yield => self.yield queue
  | .switchContext => some (self.switchContext queue)

/-- The slots that hold a process: those of the queue and `currentProcess`. -/
def slots (self : TaskScheduler) : List TaskProcess :=
  self.currentProcess.toList ++ self.readyQueue

/-- Every registered process is in exactly one slot, and no other process is in
any. -/
def Placed (self : TaskScheduler) : Prop :=
  ∀ process, self.slots.count process =
    if self.processes.lookup process.pid = some process then 1 else 0

/-- What a call asks of the state before it: a process may be removed, or give
up the processor, only while none is current, and a switch must not replace a
current process. -/
def Safe (self : TaskScheduler) : Op → Prop
  | .addProcess _ => True
  | .removeProcess _ => self.currentProcess = none
  | .yield => self.currentProcess = none
  | .switchContext => self.currentProcess = none ∨ self.readyQueue = []

/-- Every process is registered under its own pid. -/
def Keyed (self : TaskScheduler) : Prop :=
  ∀ pid process, self.processes.lookup pid = some process → process.pid = pid

theorem registered_perm (self : TaskScheduler) :
    self.registered.Perm (self.processes.entries.map fun entry => entry.2) :=
  (List.perm_insertionSort _ _).map _

theorem registered_of_processes {self after : TaskScheduler} (h : after.processes = self.processes) :
    after.registered = self.registered := by
  unfold registered
  rw [h]

theorem Keyed.mem_registered {self : TaskScheduler} (h : self.Keyed) {process : TaskProcess} :
    process ∈ self.registered ↔ self.processes.lookup process.pid = some process := by
  rw [self.registered_perm.mem_iff]
  constructor
  · intro hmem
    obtain ⟨⟨pid, found⟩, hentry, heq⟩ := List.mem_map.mp hmem
    have hlookup := AList.mem_lookup_iff.mpr hentry
    obtain rfl : found = process := heq
    obtain rfl := h pid found hlookup
    exact hlookup
  · intro hlookup
    exact List.mem_map.mpr ⟨⟨process.pid, process⟩, AList.mem_lookup_iff.mp hlookup, rfl⟩

theorem Keyed.nodup_registered {self : TaskScheduler} (h : self.Keyed) : self.registered.Nodup := by
  rw [self.registered_perm.nodup_iff]
  have hpids : (self.processes.entries.map fun entry => entry.2).map TaskProcess.pid = self.processes.keys := by
    rw [List.map_map]
    apply List.map_congr_left
    intro entry hentry
    exact h entry.1 entry.2 (AList.mem_lookup_iff.mpr hentry)
  apply List.Nodup.of_map TaskProcess.pid
  rw [hpids]
  exact self.processes.keys_nodup

/-- The slots hold what is registered. -/
theorem Keyed.placed_iff {self : TaskScheduler} (h : self.Keyed) :
    self.Placed ↔ self.slots.Perm self.registered := by
  rw [List.perm_iff_count]
  refine forall_congr' fun process => ?_
  rw [h.nodup_registered.count]
  simp only [h.mem_registered]

/-- The slots hold what is registered and `extra`: then all is well exactly when
there is no `extra`. -/
theorem Keyed.placed_iff_extra_nil {self : TaskScheduler} (h : self.Keyed) {extra : List TaskProcess}
    (hslots : self.slots.Perm (extra ++ self.registered)) : self.Placed ↔ extra = [] := by
  rw [h.placed_iff]
  constructor
  · intro hperm
    have hlength := hslots.length_eq
    rw [hperm.length_eq, List.length_append] at hlength
    exact List.eq_nil_of_length_eq_zero (by omega)
  · rintro rfl
    exact hslots

theorem initialized_keyed : initialized.Keyed := fun _ _ h => by simp [initialized] at h

theorem initialized_placed : initialized.Placed := fun _ => rfl

variable {queue}

theorem Keyed.addProcess {self : TaskScheduler} (h : self.Keyed) (process : TaskProcess) :
    (self.addProcess queue process).Keyed := by
  intro pid found hlookup
  simp only [TaskScheduler.addProcess] at hlookup
  by_cases hpid : pid = process.pid
  · rw [hpid, AList.lookup_insert] at hlookup
    rw [hpid, Option.some.inj hlookup]
  · rw [AList.lookup_insert_ne hpid] at hlookup
    exact h pid found hlookup

theorem Keyed.removeProcess {self : TaskScheduler} (h : self.Keyed) (pid : Nat) :
    (self.removeProcess queue pid).Keyed := by
  intro other found hlookup
  simp only [TaskScheduler.removeProcess, rebuildReadyQueue] at hlookup
  by_cases hother : other = pid
  · rw [hother, AList.lookup_erase] at hlookup
    cases hlookup
  · rw [AList.lookup_erase_ne hother] at hlookup
    exact h other found hlookup

theorem slots_addProcess (self : TaskScheduler) (process : TaskProcess) :
    (self.addProcess queue process).slots.Perm (process :: self.slots) := by
  calc (self.addProcess queue process).slots
    _ |>.Perm (self.currentProcess.toList ++ process :: self.readyQueue) :=
      (queue.push_perm _ _).append_left _
    _ |>.Perm (process :: self.slots) := List.perm_middle

theorem registered_addProcess {self : TaskScheduler} {process : TaskProcess}
    (hfresh : process.pid ∉ self.processes) :
    (self.addProcess queue process).registered.Perm (process :: self.registered) := by
  have hentries : (self.addProcess queue process).processes.entries.map (fun entry => entry.2) =
      process :: self.processes.entries.map fun entry => entry.2 := by
    simp only [TaskScheduler.addProcess, AList.entries_insert_of_notMem hfresh, List.map_cons]
  calc (self.addProcess queue process).registered
    _ |>.Perm (process :: self.processes.entries.map fun entry => entry.2) :=
      hentries ▸ registered_perm _
    _ |>.Perm (process :: self.registered) := self.registered_perm.symm.cons process

theorem yield_cases {self after : TaskScheduler} (hyield : self.yield queue = some after) :
    after.slots.Perm (self.currentProcess.toList ++ self.slots) ∧ after.processes = self.processes := by
  unfold TaskScheduler.yield schedule at hyield
  cases hcurrent : self.currentProcess with
  | some current =>
    simp only [hcurrent, Option.ite_none_left_eq_some, Option.some.injEq] at hyield
    obtain ⟨_, rfl⟩ := hyield
    refine ⟨?_, rfl⟩
    have hpush := queue.push_perm self.readyQueue current
    simp only [slots, hcurrent, Option.toList_some, List.singleton_append]
    exact hpush.cons current
  | none =>
    simp only [hcurrent, Option.ite_none_left_eq_some, Option.some.injEq] at hyield
    obtain ⟨_, rfl⟩ := hyield
    exact ⟨.refl _, rfl⟩

theorem switchContext_cases (self : TaskScheduler) :
    (self.readyQueue = [] ∧ self.switchContext queue = self) ∨
      self.readyQueue ≠ [] ∧ (self.switchContext queue).slots.Perm self.readyQueue ∧
        (self.switchContext queue).processes = self.processes := by
  unfold switchContext
  cases hpop : queue.pop self.readyQueue with
  | none => exact .inl ⟨queue.pop_eq_none_iff.mp hpop, rfl⟩
  | some popped =>
    obtain ⟨next, rest⟩ := popped
    have hne : self.readyQueue ≠ [] := by
      intro hnil
      rw [queue.pop_eq_none_iff.mpr hnil] at hpop
      cases hpop
    exact .inr ⟨hne, (queue.perm_of_pop hpop).symm, rfl⟩

theorem Keyed.of_processes {self after : TaskScheduler} (h : self.Keyed)
    (hprocesses : after.processes = self.processes) : after.Keyed := by
  unfold Keyed
  rw [hprocesses]
  exact h

theorem Keyed.step {self after : TaskScheduler} (h : self.Keyed) {op : Op}
    (hstep : self.step queue op = some after) : after.Keyed := by
  cases op with
  | addProcess process =>
    simp only [TaskScheduler.step, Option.ite_none_left_eq_some, Option.some.injEq] at hstep
    exact hstep.2 ▸ h.addProcess process
  | removeProcess pid =>
    obtain rfl := Option.some.inj hstep
    exact h.removeProcess pid
  | yield => exact h.of_processes (yield_cases hstep).2
  | switchContext =>
    obtain rfl := Option.some.inj hstep
    cases self.switchContext_cases with
    | inl hempty => exact hempty.2.symm ▸ h
    | inr hswitch => exact h.of_processes hswitch.2.2

/-- From a state where every process is in its place, a call keeps it so exactly
when it is safe. -/
theorem Keyed.placed_step_iff {self after : TaskScheduler} (h : self.Keyed) (hplaced : self.Placed)
    {op : Op} (hstep : self.step queue op = some after) : after.Placed ↔ self.Safe op := by
  have hafter := h.step hstep
  have hslots := h.placed_iff.mp hplaced
  cases op with
  | addProcess process =>
    refine iff_of_true ?_ trivial
    simp only [TaskScheduler.step, Option.ite_none_left_eq_some, Option.some.injEq] at hstep
    obtain ⟨hfresh, rfl⟩ := hstep
    rw [hafter.placed_iff]
    exact (self.slots_addProcess process).trans
      ((hslots.cons process).trans (registered_addProcess hfresh).symm)
  | removeProcess pid =>
    obtain rfl := Option.some.inj hstep
    rw [Safe, ← Option.toList_eq_nil_iff]
    exact hafter.placed_iff_extra_nil ((queue.ofList_perm _).append_left _)
  | yield =>
    obtain ⟨hyield, hprocesses⟩ := yield_cases hstep
    rw [Safe, ← Option.toList_eq_nil_iff]
    apply hafter.placed_iff_extra_nil
    rw [registered_of_processes hprocesses]
    exact hyield.trans (hslots.append_left _)
  | switchContext =>
    obtain rfl := Option.some.inj hstep
    cases self.switchContext_cases with
    | inl hempty =>
      rw [hempty.2]
      exact iff_of_true hplaced (.inr hempty.1)
    | inr hswitch =>
      obtain ⟨hne, hswitch, hprocesses⟩ := hswitch
      rw [Safe, or_iff_left hne, ← Option.toList_eq_nil_iff, hafter.placed_iff,
        registered_of_processes hprocesses]
      constructor
      · intro hperm
        have hlength := hslots.length_eq
        rw [← (hswitch.symm.trans hperm).length_eq, slots, List.length_append] at hlength
        exact List.eq_nil_of_length_eq_zero (by omega)
      · intro hnil
        rw [slots, hnil, List.nil_append] at hslots
        exact hswitch.trans hslots

/-- Every process is in its place all along a run exactly when all its calls are
safe. -/
theorem always_placed_iff_safe (queue : PriorityQueue TaskProcess) (ops : List Op) :
    Always (step queue) Placed initialized ops ↔ Guarded (step queue) Safe initialized ops :=
  always_iff_guarded Keyed (fun _ _ _ h hstep => h.step hstep)
    (fun _ _ _ h hplaced hstep => h.placed_step_iff hplaced hstep) ops
    initialized_keyed initialized_placed

/-- The process that runs and yields is pushed back without ceasing to be
current. -/
theorem yield_leaves_current_queued :
    ¬ Always (step (.sorted fun a b : TaskProcess => a.pid ≤ b.pid)) Placed initialized
      [.addProcess ⟨0x1000, 1⟩, .switchContext, .yield] := by
  rintro ⟨_, h⟩
  obtain ⟨_, h⟩ := h _ rfl
  obtain ⟨_, h⟩ := h _ rfl
  obtain ⟨hplaced, _⟩ := h _ rfl
  exact absurd (hplaced ⟨0x1000, 1⟩) (by decide)

end TaskScheduler

end Kernel
