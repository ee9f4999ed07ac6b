import Mathlib.Logic.Function.Basic
import KernelcModerne.Lib.Transition

open Transition

namespace Kernel

namespace PriorityScheduler

/-- A `Task*`. -/
abbrev Task := Nat

structure TaskQueue where
  tasks : List Task
  quantum : UInt32
  priority : UInt8

end PriorityScheduler

open PriorityScheduler in
/-- A scheduler with the fields of the tasks that it points to. -/
structure PriorityScheduler where
  priorityQueues : Vector TaskQueue 8
  currentTask : Option Task
  ticks : UInt64
  taskPriority : Task → UInt8
  taskQuantum : Task → UInt32

namespace PriorityScheduler

/-- The functions that the scheduler calls. -/
structure Services where
  updatePriorities : PriorityScheduler → PriorityScheduler
  selectNextTask : PriorityScheduler → Option Task × PriorityScheduler
  contextSwitch : PriorityScheduler → Option Task → Option Task → PriorityScheduler

/-- `std::clamp`. -/
def clamp (value low high : UInt8) : UInt8 :=
  if value < low then low else if high < value then high else value

/-- `priority_queues[index].tasks.push_back(task)`. An index past the end is
undefined (`none`). -/
def pushBack (self : PriorityScheduler) (index : Nat) (task : Task) : Option PriorityScheduler :=
  if h : index < 8 then
    some
      { self with
        priorityQueues := self.priorityQueues.set index
          { self.priorityQueues[index] with tasks := self.priorityQueues[index].tasks ++ [task] } }
  else none

/-- `task->set_quantum(priority_queues[index].quantum)`. -/
def setQuantum (self : PriorityScheduler) (index : Nat) (task : Task) : Option PriorityScheduler :=
  if h : index < 8 then
    some { self with taskQuantum := Function.update self.taskQuantum task self.priorityQueues[index].quantum }
  else none

def addTask (self : PriorityScheduler) (task : Task) (priority : UInt8) : Option PriorityScheduler := do
  let priority := clamp priority 0 7
  let self ← self.pushBack priority.toNat task
  self.setQuantum priority.toNat task

def getPriority (self : PriorityScheduler) (task : Task) : UInt8 := self.taskPriority task

/-- Nothing that the scheduler calls writes the priority of a task. -/
structure Services.LeavesPriorities (services : Services) : Prop where
  updatePriorities : ∀ self, (services.updatePriorities self).taskPriority = self.taskPriority
  selectNextTask : ∀ self, (services.selectNextTask self).2.taskPriority = self.taskPriority
  contextSwitch : ∀ self current next,
    (services.contextSwitch self current next).taskPriority = self.taskPriority

variable (services : Services)

def schedule (self : PriorityScheduler) : PriorityScheduler :=
  let (next, self) := services.selectNextTask (services.updatePriorities self)
  if next ≠ self.currentTask then services.contextSwitch self self.currentTask next else self

/-- `yield` before it calls `schedule`. -/
def requeue (self : PriorityScheduler) (current : Task) : Option PriorityScheduler :=
  self.pushBack (self.getPriority current).toNat current

def yield (self : PriorityScheduler) : Option PriorityScheduler :=
  match self.currentTask with
  | some current => (self.requeue current).map (schedule services)
  | none => some self

def tasksAt (self : PriorityScheduler) (level : Fin 8) : List Task := self.priorityQueues[level].tasks

/-- From one state to the other the task is put behind those of one queue, and
the other queues keep theirs. -/
def PutsInto (task : Task) (index : Fin 8) (before after : PriorityScheduler) : Prop :=
  ∀ level, after.tasksAt level = before.tasksAt level ++ if level = index then [task] else []

instance (task : Task) (index : Fin 8) (before after : PriorityScheduler) :
    Decidable (PutsInto task index before after) := inferInstanceAs (Decidable (∀ _, _))

/-- The queue that a task is put into, as the queues show it. -/
def placedBy (task : Task) (before after : PriorityScheduler) : Option (Fin 8) :=
  (List.finRange 8).find? fun index => PutsInto task index before after

variable {self before after : PriorityScheduler} {task : Task} {index : Nat} {priority : UInt8}

/-- The indices that are defined, and what is written there. -/
theorem pushBack_cases (self : PriorityScheduler) (index : Nat) (task : Task) :
    (∃ (h : index < 8) (after : PriorityScheduler), self.pushBack index task = some after ∧
      PutsInto task ⟨index, h⟩ self after ∧ after.taskPriority = self.taskPriority) ∨
    ¬ index < 8 ∧ self.pushBack index task = none := by
  by_cases h : index < 8
  · refine .inl ⟨h, _, dif_pos h, fun level => ?_, rfl⟩
    simp only [tasksAt, Fin.getElem_fin, Vector.getElem_set, Fin.ext_iff, eq_comm (a := level.val)]
    split
    · next heq => simp only [heq]
    · exact (List.append_nil _).symm
  · exact .inr ⟨h, dif_neg h⟩

theorem PutsInto.eq {first second : Fin 8} (hfirst : PutsInto task first before after)
    (hsecond : PutsInto task second before after) : first = second := by
  by_contra hne
  have hboth := (hfirst first).symm.trans (hsecond first)
  simp [hne] at hboth

theorem PutsInto.placedBy_eq {index : Fin 8} (h : PutsInto task index before after) :
    placedBy task before after = some index := by
  have hsome : (placedBy task before after).isSome := by
    rw [placedBy, List.find?_isSome]
    exact ⟨index, List.mem_finRange index, decide_eq_true h⟩
  obtain ⟨found, hfound⟩ := Option.isSome_iff_exists.mp hsome
  have htest := List.find?_some (p := fun index => decide (PutsInto task index before after)) hfound
  rw [hfound, (of_decide_eq_true htest).eq h]

theorem clamp_eq (priority : UInt8) : (clamp priority 0 7).toNat = min priority.toNat 7 := by
  have hseven : (7 : UInt8).toNat = 7 := rfl
  have hzero : ¬ priority < 0 := by simp
  unfold clamp
  rw [if_neg hzero, apply_ite UInt8.toNat]
  simp only [UInt8.lt_iff_toNat_lt, hseven]
  split <;> omega

theorem setQuantum_frame (self : PriorityScheduler) (h : index < 8) (task : Task) :
    ∃ after, self.setQuantum index task = some after ∧ after.priorityQueues = self.priorityQueues ∧
      after.taskPriority = self.taskPriority :=
  ⟨_, dif_pos h, rfl, rfl⟩

/-- `add_task` puts the task into the queue of its priority, or into the last. -/
theorem addTask_spec (self : PriorityScheduler) (task : Task) (priority : UInt8) :
    ∃ (index : Fin 8) (after : PriorityScheduler), index.val = min priority.toNat 7 ∧
      self.addTask task priority = some after ∧ PutsInto task index self after ∧
      after.taskPriority = self.taskPriority := by
  have hclamp := clamp_eq priority
  obtain ⟨h, pushed, hpush, hputs, hpriority⟩ | ⟨hout, _⟩ := self.pushBack_cases (clamp priority 0 7).toNat task
  · obtain ⟨after, hset, hqueues, hsame⟩ := pushed.setQuantum_frame h task
    refine ⟨⟨_, h⟩, after, hclamp, ?_, fun level => ?_, hsame.trans hpriority⟩
    · simp only [addTask, hpush, Option.bind_eq_bind, Option.bind_some, hset]
    · rw [← hputs level, tasksAt, tasksAt, hqueues]
  · omega

variable {services}

theorem Services.LeavesPriorities.schedule (h : services.LeavesPriorities) (self : PriorityScheduler) :
    (self.schedule services).taskPriority = self.taskPriority := by
  have hselected := (h.selectNextTask _).trans (h.updatePriorities self)
  simp only [PriorityScheduler.schedule]
  split
  · exact (h.contextSwitch _ _ _).trans hselected
  · exact hselected

theorem Services.LeavesPriorities.yield (h : services.LeavesPriorities)
    (hyield : self.yield services = some after) : after.taskPriority = self.taskPriority := by
  unfold PriorityScheduler.yield at hyield
  split at hyield
  · next current _ =>
    obtain ⟨requeued, hrequeue, rfl⟩ := Option.map_eq_some_iff.mp hyield
    rw [h.schedule]
    obtain ⟨_, pushed, hpush, _, hpriority⟩ | ⟨_, hnone⟩ :=
      self.pushBack_cases (self.getPriority current).toNat current
    · obtain rfl := Option.some.inj (hpush.symm.trans hrequeue)
      exact hpriority
    · cases hnone.symm.trans hrequeue
  · exact Option.some.inj hyield ▸ rfl

variable (services)

/-- A scheduler and, for each task, the priority that it was last added with and
the queue that it was put into then. -/
structure Client where
  scheduler : PriorityScheduler
  added : Task → Option UInt8
  placed : Task → Option (Fin 8)

inductive Op where
  | addTask (task : Task) (priority : UInt8)
  | yield
  | schedule

namespace Client

/-- Before any task is added. -/
def start (scheduler : PriorityScheduler) : Client where
  scheduler := scheduler
  added _ := none
  placed _ := none

/-- One call. What is undefined is told by `KeepsLevels`, from the state before;
the step leaves the scheduler as it is. -/
def step (client : Client) : Op → Option Client
  | .addTask task priority =>
    let scheduler := (client.scheduler.addTask task priority).getD client.scheduler
    some
      { scheduler
        added := Function.update client.added task (some priority)
        placed := Function.update client.placed task (placedBy task client.scheduler scheduler) }
  | .yield => some { client with scheduler := (client.scheduler.yield services).getD client.scheduler }
  | .schedule => some { client with scheduler := client.scheduler.schedule services }

/-- The current task that yields is put into the queue before the scheduler goes
on to `schedule`. -/
def YieldsInto (client : Client) (current : Task) (index : Fin 8) : Prop :=
  ∃ after, client.scheduler.requeue current = some after ∧ PutsInto current index client.scheduler after ∧
    client.scheduler.yield services = some (after.schedule services)

/-- A task that is added is put into one of the queues, and the current task that
yields back into the one that it was put into when it was last added. -/
def KeepsLevels (client : Client) : Op → Prop
  | .addTask task priority =>
    ∃ index after, client.scheduler.addTask task priority = some after ∧
      PutsInto task index client.scheduler after
  | .yield => ∀ current, client.scheduler.currentTask = some current →
      ∃ index, client.YieldsInto services current index ∧
        ∀ placed, client.placed current = some placed → index = placed
  | .schedule => True

/-- A task that yields has the priority that it was last added with, or 7 where
that was above 7. -/
def YieldsAsAdded (client : Client) (op : Op) : Prop :=
  op = .yield → ∀ current, client.scheduler.currentTask = some current →
    (client.scheduler.taskPriority current).toNat < 8 ∧
      ∀ priority, client.added current = some priority →
        (client.scheduler.taskPriority current).toNat = min priority.toNat 7

/-- Each task was put into the queue of the priority that it was added with. -/
def Linked (client : Client) : Prop :=
  ∀ task, (client.placed task).map Fin.val = (client.added task).map fun priority => min priority.toNat 7

theorem start_linked (scheduler : PriorityScheduler) : (start scheduler).Linked := fun _ => rfl

variable {services} {client after : Client} {op : Op}

theorem Linked.step (h : client.Linked) (hstep : client.step services op = some after) : after.Linked := by
  cases op with
  | addTask task priority =>
    obtain ⟨index, scheduler, hindex, hadd, hputs, _⟩ := client.scheduler.addTask_spec task priority
    simp only [Client.step, hadd, Option.getD_some, Option.some.injEq] at hstep
    subst hstep
    intro other
    by_cases hother : other = task
    · simp only [hother, Function.update_self, hputs.placedBy_eq, Option.map_some, hindex]
    · simp only [Function.update_of_ne hother]
      exact h other
  | yield =>
    obtain rfl := Option.some.inj hstep
    exact h
  | schedule =>
    obtain rfl := Option.some.inj hstep
    exact h

/-- The current task goes into the queue of its own priority, if there is one. -/
theorem yieldsInto_iff {current : Task} (hcurrent : client.scheduler.currentTask = some current)
    (index : Fin 8) :
    client.YieldsInto services current index ↔ (client.scheduler.taskPriority current).toNat = index.val := by
  obtain ⟨hlt, pushed, hpush, hputs, _⟩ | ⟨hout, hnone⟩ :=
    client.scheduler.pushBack_cases (client.scheduler.getPriority current).toNat current
  · have hrequeue : client.scheduler.requeue current = some pushed := hpush
    constructor
    · rintro ⟨after, hafter, hindex, _⟩
      obtain rfl := Option.some.inj (hrequeue.symm.trans hafter)
      exact congrArg Fin.val (hputs.eq hindex)
    · intro hindex
      have heq : index = ⟨_, hlt⟩ := Fin.ext hindex.symm
      refine ⟨pushed, hrequeue, heq ▸ hputs, ?_⟩
      rw [PriorityScheduler.yield, hcurrent]
      exact congrArg (Option.map _) hrequeue
  · refine iff_of_false ?_ fun hindex => hout (hindex.symm ▸ index.isLt)
    rintro ⟨_, hrequeue, _⟩
    cases hnone.symm.trans hrequeue

theorem Linked.yields_iff (h : client.Linked) {current : Task}
    (hcurrent : client.scheduler.currentTask = some current) :
    (∃ index, client.YieldsInto services current index ∧
      ∀ placed, client.placed current = some placed → index = placed) ↔
    (client.scheduler.taskPriority current).toNat < 8 ∧
      ∀ priority, client.added current = some priority →
        (client.scheduler.taskPriority current).toNat = min priority.toNat 7 := by
  have hlink := h current
  simp only [yieldsInto_iff hcurrent]
  cases hplaced : client.placed current with
  | none =>
    rw [hplaced, Option.map_none, eq_comm, Option.map_eq_none_iff] at hlink
    simp only [hlink, reduceCtorEq, false_implies, implies_true, and_true]
    exact ⟨fun ⟨index, hindex⟩ => hindex ▸ index.isLt, fun hlt => ⟨⟨_, hlt⟩, rfl⟩⟩
  | some placed =>
    rw [hplaced, Option.map_some, eq_comm, Option.map_eq_some_iff] at hlink
    obtain ⟨priority, hadded, hpriority⟩ := hlink
    simp only [hadded, Option.some.injEq, forall_eq', hpriority]
    constructor
    · rintro ⟨index, hindex, rfl⟩
      exact ⟨hindex ▸ index.isLt, hindex⟩
    · exact fun hsame => ⟨placed, hsame.2, rfl⟩

theorem Linked.keepsLevels_iff (h : client.Linked) (op : Op) :
    client.KeepsLevels services op ↔ client.YieldsAsAdded op := by
  cases op with
  | addTask task priority =>
    obtain ⟨index, scheduler, _, hadd, hputs, _⟩ := client.scheduler.addTask_spec task priority
    exact iff_of_true ⟨index, scheduler, hadd, hputs⟩ nofun
  | schedule => exact iff_of_true trivial nofun
  | yield =>
    refine Iff.trans ?_ (imp_iff_right rfl).symm
    exact forall₂_congr fun current hcurrent => h.yields_iff hcurrent

variable (services)

/-- All along a run tasks are put into the queues that there are, and go back where
they were added, exactly when tasks only yield with the priority they were added
with. -/
theorem along_keepsLevels_iff (scheduler : PriorityScheduler) (ops : List Op) :
    Guarded (step services) (KeepsLevels services) (start scheduler) ops ↔
      Guarded (step services) YieldsAsAdded (start scheduler) ops := by
  refine along_iff_along Linked ?_ ?_ ops (start_linked scheduler)
  · exact fun client op after h hstep => h.keepsLevels_iff op
  · exact fun client op after h hstep _ => h.step hstep

variable {services} {scheduler : PriorityScheduler} {ops : List Op}

/-- Where priorities are left alone, it is enough that tasks are added with
their own. -/
theorem yieldsAsAdded_of_added_own (h : services.LeavesPriorities)
    (hrange : ∀ task, (scheduler.taskPriority task).toNat < 8)
    (hadds : ∀ task priority, .addTask task priority ∈ ops →
      (scheduler.taskPriority task).toNat = min priority.toNat 7) :
    Guarded (step services) YieldsAsAdded (start scheduler) ops := by
  have hown : Guarded (step services) (fun _ op => op ∈ ops) (start scheduler) ops :=
    guarded_of_forall (fun _ h => h) _
  apply along_of_guarded (fun client => client.scheduler.taskPriority = scheduler.taskPriority ∧
    ∀ task priority, client.added task = some priority →
      (scheduler.taskPriority task).toNat = min priority.toNat 7) ?_ ops ?_ hown
  · rintro client op after ⟨hsame, hadded⟩ hop hstep
    refine ⟨fun _ current _ => ?_, ?_⟩
    · rw [hsame]
      exact ⟨hrange current, hadded current⟩
    · cases op with
      | addTask task priority =>
        obtain ⟨_, next, _, hadd, _, hpriority⟩ := client.scheduler.addTask_spec task priority
        simp only [step, hadd, Option.getD_some, Option.some.injEq] at hstep
        subst hstep
        refine ⟨hpriority.trans hsame, fun other found hfound => ?_⟩
        dsimp only at hfound
        by_cases hother : other = task
        · subst hother
          rw [Function.update_self, Option.some.injEq] at hfound
          exact hfound ▸ hadds other priority hop
        · rw [Function.update_of_ne hother] at hfound
          exact hadded other found hfound
      | yield =>
        obtain rfl := Option.some.inj hstep
        refine ⟨Eq.trans ?_ hsame, hadded⟩
        cases hyield : client.scheduler.yield services with
        | none => rfl
        | some after => exact h.yield hyield
      | schedule =>
        obtain rfl := Option.some.inj hstep
        exact ⟨(h.schedule _).trans hsame, hadded⟩
  · exact ⟨rfl, nofun⟩

/-- A scheduler of empty queues. -/
def idle (taskPriority : Task → UInt8) : PriorityScheduler where
  priorityQueues := .replicate 8 ⟨[], 10, 0⟩
  currentTask := none
  ticks := 0
  taskPriority := taskPriority
  taskQuantum := fun _ => 0

/-- The services of a scheduler that selects the task 1. -/
def selectsFirst : Services where
  updatePriorities self := self
  selectNextTask self := (some 1, self)
  contextSwitch self _ next := { self with currentTask := next }

/-- A task of the priority 200 is added with it, and yields. -/
theorem yield_out_of_range :
    ¬ Guarded (step selectsFirst) (KeepsLevels selectsFirst) (start (idle fun _ => 200))
      [.addTask 1 200, .schedule, .yield] := by
  intro h
  obtain ⟨_, h⟩ := h _ rfl
  obtain ⟨_, h⟩ := h _ rfl
  obtain ⟨_, ⟨_, hrequeue, _⟩, _⟩ := (h _ rfl).1 1 rfl
  cases hrequeue

end Client

end PriorityScheduler

end Kernel
