import KernelcModerne.Lib.HeapQueue
import KernelcModerne.Scheduler.TaskScheduler

open Transition

namespace Kernel.TaskScheduler

/-- A scheduler with the priorities of the processes that it points to. -/
structure Prioritized where
  scheduler : TaskScheduler
  /-- By the process's object. -/
  priority : Nat → Int

namespace Prioritized

/-- What `readyQueue` compares its elements by. -/
def key (self : Prioritized) (process : TaskProcess) : Int := self.priority process.object

/-- The loop over `processes`, where `updatePriority` leaves the priorities
`updated`. -/
def adjustPriorities (self : Prioritized) (updated : Nat → Int) : Prioritized :=
  { self with
    priority := self.scheduler.registered.foldl
      (fun priority process => Function.update priority process.object (updated process.object)) self.priority }

/-- The metrics and the load balancer see neither the queue nor the processes. -/
def adaptToGameLoad (self : Prioritized) (updated : Nat → Int) : Prioritized := self.adjustPriorities updated

inductive Op where
  | addProcess (process : TaskProcess)
  | adaptToGameLoad (updated : Nat → Int)
  | removeProcess (pid : Nat)
  | switchContext

variable (heap : HeapQueue TaskProcess Int)

def step (self : Prioritized) : Op → Option Prioritized
  | .addProcess process =>
    some { self with scheduler := self.scheduler.addProcess (heap.queue self.key) process }
  | .adaptToGameLoad updated => some (self.adaptToGameLoad updated)
  | .removeProcess pid => some { self with scheduler := self.scheduler.removeProcess (heap.queue self.key) pid }
  | .switchContext => some { self with scheduler := self.scheduler.switchContext (heap.queue self.key) }

/-- A switch makes a process current that was queued, and none that was queued
had a higher priority then. -/
def DispatchesHighest (self : Prioritized) (op : Op) (after : Prioritized) : Prop :=
  match op with
  | .switchContext => self.scheduler.readyQueue ≠ [] → ∃ next ∈ self.scheduler.readyQueue,
      after.scheduler.currentProcess = some next ∧
        ∀ waiting ∈ self.scheduler.readyQueue, self.key waiting ≤ self.key next
  | _ => True

/-- The queue is a heap by the priorities that the processes have. -/
def InOrder (self : Prioritized) : Prop := IsHeap self.key self.scheduler.readyQueue

/-- New priorities raise no queued process above its parent in the heap. -/
def KeepsOrder (self : Prioritized) : Op → Prop
  | .adaptToGameLoad updated => (self.adaptToGameLoad updated).InOrder
  | _ => True

variable {heap} {self after : Prioritized} {op : Op}

/-- Only new priorities can put the queue out of order. -/
theorem InOrder.step_iff (h : self.InOrder) (hstep : self.step heap op = some after) :
    after.InOrder ↔ self.KeepsOrder op := by
  cases op with
  | addProcess process =>
    obtain rfl := Option.some.inj hstep
    exact iff_of_true (heap.push_isHeap _ _ _ h) trivial
  | adaptToGameLoad updated =>
    obtain rfl := Option.some.inj hstep
    exact Iff.rfl
  | removeProcess pid =>
    obtain rfl := Option.some.inj hstep
    exact iff_of_true (heap.isHeap_ofList _ _) trivial
  | switchContext =>
    obtain rfl := Option.some.inj hstep
    refine iff_of_true ?_ trivial
    cases hqueue : self.scheduler.readyQueue with
    | nil =>
      simp only [InOrder, switchContext, hqueue, (heap.queue self.key).pop_nil]
      exact .nil _
    | cons top rest =>
      rw [InOrder, hqueue] at h
      simp only [InOrder, switchContext, HeapQueue.queue, hqueue]
      exact heap.pop_isHeap _ _ _ h

/-- The front of a queue in order goes first. -/
theorem InOrder.dispatchesHighest (h : self.InOrder) (hstep : self.step heap op = some after) :
    self.DispatchesHighest op after := by
  cases op with
  | addProcess process => trivial
  | adaptToGameLoad updated => trivial
  | removeProcess pid => trivial
  | switchContext =>
    obtain rfl := Option.some.inj hstep
    intro hne
    obtain ⟨top, rest, hqueue⟩ := List.exists_cons_of_ne_nil hne
    rw [InOrder, hqueue] at h
    refine ⟨top, by simp [hqueue], ?_, hqueue ▸ h.le_front⟩
    simp only [switchContext, HeapQueue.queue, hqueue, contextSwitch]

/-- Priorities that keep the order of the processes queued keep the queue's. -/
theorem InOrder.keepsOrder_of_le_imp_le (h : self.InOrder) {updated : Nat → Int}
    (hupdated : ∀ a ∈ self.scheduler.readyQueue, ∀ b ∈ self.scheduler.readyQueue,
      self.key a ≤ self.key b → (self.adaptToGameLoad updated).key a ≤ (self.adaptToGameLoad updated).key b) :
    self.KeepsOrder (.adaptToGameLoad updated) :=
  IsHeap.of_le_imp_le h hupdated

variable (heap) (priority : Nat → Int) (ops : List Op)

/-- A scheduler without processes. -/
def start (priority : Nat → Int) : Prioritized := ⟨initialized, priority⟩

theorem start_inOrder : (start priority).InOrder := .nil _

/-- The queue is in order all along a run exactly when no new priorities put it
out of order. -/
theorem always_inOrder_iff :
    Always (step heap) InOrder (start priority) ops ↔ Guarded (step heap) KeepsOrder (start priority) ops :=
  always_iff_guarded_of_step (fun _ _ _ h hstep => h.step_iff hstep) ops (start_inOrder priority)

/-- Where no new priorities put the queue out of order, every process that is
dispatched has the highest priority of those queued. -/
theorem along_dispatchesHighest (hkeeps : Guarded (step heap) KeepsOrder (start priority) ops) :
    Along (step heap) DispatchesHighest (start priority) ops := by
  apply along_of_guarded InOrder ?_ ops (start_inOrder priority) hkeeps
  intro self op after h hkeep hstep
  exact ⟨h.dispatchesHighest hstep, (h.step_iff hstep).mpr hkeep⟩

/-- Two processes whose priorities both rise, the higher one's less. -/
theorem along_dispatchesHighest_raised :
    Along (step .sorting) DispatchesHighest (start fun object => if object = 0x1000 then 1 else 2)
      [.addProcess ⟨0x1000, 1⟩, .addProcess ⟨0x2000, 2⟩,
        .adaptToGameLoad fun object => if object = 0x1000 then 4 else 5, .switchContext] := by
  apply along_dispatchesHighest
  intro _ hfirst
  obtain rfl := Option.some.inj hfirst
  refine ⟨trivial, fun _ hsecond => ⟨trivial, fun _ _ => ⟨?_, fun _ _ => ⟨trivial, trivial⟩⟩⟩⟩
  obtain rfl := Option.some.inj hsecond
  exact .of_pairwise (by decide)

/-- A process that is raised above the front of the queue waits. -/
theorem overtaken_process_dispatched :
    ¬ Along (step .sorting) DispatchesHighest (start fun object => if object = 0x1000 then 1 else 2)
      [.addProcess ⟨0x1000, 1⟩, .addProcess ⟨0x2000, 2⟩,
        .adaptToGameLoad fun object => if object = 0x1000 then 5 else 3, .switchContext] := by
  intro h
  obtain ⟨_, h⟩ := h _ rfl
  obtain ⟨_, h⟩ := h _ rfl
  obtain ⟨_, h⟩ := h _ rfl
  obtain ⟨hhighest, _⟩ := h _ rfl
  obtain ⟨next, _, hcurrent, hle⟩ := hhighest (by decide)
  obtain rfl : ⟨0x2000, 2⟩ = next := Option.some.inj hcurrent
  exact absurd (hle ⟨0x1000, 1⟩ (by decide)) (by decide)

end Prioritized

end Kernel.TaskScheduler
