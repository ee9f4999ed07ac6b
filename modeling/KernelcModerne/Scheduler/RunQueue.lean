import Mathlib.Data.Int.Order.Basic
import KernelcModerne.Lib.SearchTree
import KernelcModerne.Lib.Transition

open Transition SearchTree

namespace Kernel.ProcessScheduler

/-- The fields of a process that the run queue and its statistics read.
`vruntime` is in nanoseconds. -/
structure QueuedProcess where
  pid : Nat
  priority : UInt32
  vruntime : Int

/-- The run queue, a search tree by the `vruntime` that its processes had when
they were put in. -/
structure CFSPlusPlus where
  runqueue : BinaryTree QueuedProcess

namespace CFSPlusPlus

def pickNext (self : CFSPlusPlus) : Option QueuedProcess := leftmost self.runqueue

/-- `proc.vruntime += calculateDelta(proc)`. -/
def advance (calculateDelta : QueuedProcess → Nat) (proc : QueuedProcess) : QueuedProcess :=
  { proc with vruntime := proc.vruntime + calculateDelta proc }

/-- The loop changes the processes where they are in the tree. -/
def updateStats (self : CFSPlusPlus) (calculateDelta : QueuedProcess → Nat) : CFSPlusPlus :=
  { self with runqueue := self.runqueue.map (advance calculateDelta) }

/-- One tick of the timer. -/
def step (self : CFSPlusPlus) (calculateDelta : QueuedProcess → Nat) : Option CFSPlusPlus :=
  some (self.updateStats calculateDelta)

/-- The tree is ordered by the `vruntime` of its processes. -/
def InOrder (self : CFSPlusPlus) : Prop := Ordered QueuedProcess.vruntime self.runqueue

/-- The process picked has a `vruntime` that is minimal in the queue. -/
def PicksLeast (self : CFSPlusPlus) : Prop :=
  ∀ next, self.pickNext = some next → ∀ proc, Mem proc self.runqueue → next.vruntime ≤ proc.vruntime

/-- The leftmost process gets more than another only up to what it is behind. -/
def WithinLead (self : CFSPlusPlus) (calculateDelta : QueuedProcess → Nat) : Prop :=
  ∀ next, self.pickNext = some next → ∀ proc, Mem proc self.runqueue →
    (calculateDelta next : Int) ≤ calculateDelta proc + (proc.vruntime - next.vruntime)

theorem InOrder.picksLeast {self : CFSPlusPlus} (h : self.InOrder) : self.PicksLeast :=
  fun _ hnext _ hproc => h.leftmost_le hnext hproc

/-- The same process is picked after a tick. -/
theorem pickNext_updateStats (self : CFSPlusPlus) (calculateDelta : QueuedProcess → Nat) :
    (self.updateStats calculateDelta).pickNext = self.pickNext.map (advance calculateDelta) :=
  leftmost_map _ _

theorem picksLeast_updateStats_iff (self : CFSPlusPlus) (calculateDelta : QueuedProcess → Nat) :
    (self.updateStats calculateDelta).PicksLeast ↔ self.WithinLead calculateDelta := by
  constructor
  · intro h next hnext proc hproc
    have hleast := h (advance calculateDelta next) (by rw [pickNext_updateStats, hnext]; rfl)
      (advance calculateDelta proc) ((mem_map _ _ _).mpr ⟨proc, hproc, rfl⟩)
    simp only [advance] at hleast
    omega
  · intro h next' hnext' proc' hproc'
    rw [pickNext_updateStats, Option.map_eq_some_iff] at hnext'
    obtain ⟨next, hnext, rfl⟩ := hnext'
    obtain ⟨proc, hproc, rfl⟩ := (mem_map _ _ _).mp hproc'
    have hlead := h next hnext proc hproc
    simp only [advance]
    omega

/-- From a tree in order, every process picked in a run of ticks has the least
`vruntime` exactly when no tick takes the leftmost process past another. -/
theorem always_picksLeast_iff {start : CFSPlusPlus} (hstart : start.InOrder)
    (deltas : List (QueuedProcess → Nat)) :
    Always step PicksLeast start deltas ↔ Guarded step WithinLead start deltas := by
  apply always_iff_guarded_of_step ?_ deltas hstart.picksLeast
  intro self calculateDelta after _ hstep
  obtain rfl := Option.some.inj hstep
  exact self.picksLeast_updateStats_iff calculateDelta

/-- Two processes, the second one on the right of the first. -/
def twoProcesses : CFSPlusPlus := ⟨.node ⟨1, 1, 0⟩ .nil (.node ⟨2, 1, 5⟩ .nil .nil)⟩

theorem twoProcesses_inOrder : twoProcesses.InOrder := by
  simp [InOrder, twoProcesses, Ordered, Mem]

/-- One tick of the same length for both. -/
theorem always_picksLeast_iff_twoProcesses :
    Always step PicksLeast twoProcesses [fun _ => 10] ↔
      Guarded step WithinLead twoProcesses [fun _ => 10] :=
  always_picksLeast_iff twoProcesses_inOrder _

/-- The process that runs is charged alone, and is picked again. -/
theorem running_process_picked_again :
    ¬ Always step PicksLeast twoProcesses [fun proc => if proc.pid = 1 then 10 else 0] := by
  rintro ⟨_, h⟩
  obtain ⟨hleast, _⟩ := h _ rfl
  have hle := hleast ⟨1, 1, 10⟩ rfl ⟨2, 1, 5⟩ (.inr (.inr (.inl rfl)))
  exact absurd hle (by decide)

end CFSPlusPlus

end Kernel.ProcessScheduler
