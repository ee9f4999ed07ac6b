import Mathlib.Data.List.Perm.Basic
import Mathlib.Data.List.Range
import Mathlib.Logic.Function.Basic
import KernelcModerne.Lib.Word64

namespace Kernel

/-- `Process::State`. -/
inductive ProcessState where
  | CREATED
  | READY
  | RUNNING
  | BLOCKED
  | TERMINATED
  deriving DecidableEq

namespace EnhancedScheduler

def MAX_PROCESSES : Nat := 1024
abbrev MAX_THREADS : Nat := 256

/-- `State` of the scheduler. -/
inductive State where
  | STOPPED
  | RUNNING
  | ERROR
  deriving DecidableEq

structure Process where
  id : Nat
  state : ProcessState
  priority : UInt32
  deriving DecidableEq

/-- A `Process*`: the position in `processes` of the owner of the process,
which never moves and is never removed. -/
abbrev ProcessPtr := Nat

/-- A `ProcessContext*`: the context is a member of its process. -/
structure ContextPtr where
  process : ProcessPtr
  deriving DecidableEq

def getContext (process : ProcessPtr) : ContextPtr := ⟨process⟩

structure ThreadContext where
  priority : Nat
  cpuTime : Nat
  isGameThread : Bool
  isActive : Bool
  processContext : ContextPtr

/-- The ways an OpenMP loop over `n` indices may be split into chunks, each with
its own private variables. -/
structure LoopSplit where
  chunks : Nat → List (List Nat)
  perm : ∀ n, (chunks n).flatten.Perm (List.range n)

/-- The whole loop as one chunk. -/
def LoopSplit.sequential : LoopSplit where
  chunks n := [List.range n]
  perm n := by simp

end EnhancedScheduler

open EnhancedScheduler

/-- The scheduler. A `ThreadContext*` is an index into `threads`. -/
structure EnhancedScheduler where
  threads : Fin MAX_THREADS → ThreadContext
  activeThreadCount : Nat
  processes : List Process
  readyQueue : List ProcessPtr
  currentProcess : Option ProcessPtr
  currentThread : Option (Fin MAX_THREADS)
  state : EnhancedScheduler.State

namespace EnhancedScheduler

/-- The scheduler as constructed, over thread contexts with any content. -/
def constructed (threads : Fin MAX_THREADS → ThreadContext) : EnhancedScheduler where
  threads := threads
  activeThreadCount := 0
  processes := []
  readyQueue := []
  currentProcess := none
  currentThread := none
  state := .STOPPED

/-- The scheduler after `initialize()`. -/
def initialized (self : EnhancedScheduler) : EnhancedScheduler :=
  { self with readyQueue := [], state := .STOPPED }

def start (self : EnhancedScheduler) : EnhancedScheduler :=
  if self.state = .RUNNING then self else { self with state := .RUNNING }

def stop (self : EnhancedScheduler) : EnhancedScheduler :=
  if self.state ≠ .RUNNING then self else { self with state := .STOPPED }

/-- `threads[i]`, where an index outside the array has no meaning. -/
def threadIndex (i : Nat) : Option (Fin MAX_THREADS) :=
  if h : i < MAX_THREADS then some ⟨i, h⟩ else none

def createProcess (self : EnhancedScheduler) (priority : UInt32) : Option (EnhancedScheduler × Nat) :=
  if self.processes.length ≥ MAX_PROCESSES then some (self, 0)
  else do
    let pid := self.processes.length + 1
    let process := self.processes.length
    let thread ← threadIndex self.activeThreadCount
    let context : ThreadContext :=
      { priority := priority.toNat
        cpuTime := 0
        isGameThread := priority > 10
        isActive := true
        processContext := getContext process }
    some ({ self with
      activeThreadCount := self.activeThreadCount + 1
      threads := Function.update self.threads thread context
      readyQueue := self.readyQueue ++ [process]
      processes := self.processes ++ [⟨pid, .READY, priority⟩] }, pid)

def setState (self : EnhancedScheduler) (process : ProcessPtr) (state : ProcessState) :
    EnhancedScheduler :=
  { self with processes := self.processes.modify process fun p => { p with state } }

/-- The body of the loop of `terminateProcess` over the threads. -/
def deactivate (process : ProcessPtr) (threads : Fin MAX_THREADS → ThreadContext) (i : Nat) :
    Option (Fin MAX_THREADS → ThreadContext) := do
  let thread ← threadIndex i
  if (threads thread).processContext = getContext process then
    some (Function.update threads thread { threads thread with isActive := false })
  else some threads

def terminateProcess (self : EnhancedScheduler) (pid : Nat) : Option EnhancedScheduler :=
  match self.processes.findIdx? fun process => process.id = pid with
  | none => some self
  | some process => do
    let self := self.setState process .TERMINATED
    let threads ← (List.range self.activeThreadCount).foldlM (deactivate process) self.threads
    some { self with threads }

def calculateDynamicPriority (thread : ThreadContext) : Nat :=
  let priority := if thread.isGameThread then Word64.mul thread.priority 2 else thread.priority
  Word64.add priority (1000000 / Word64.add thread.cpuTime 1)

/-- The body of the selection loop, on a chunk's private maximum and the shared
`nextThread`. -/
def consider (self : EnhancedScheduler) (best : Nat × Option (Fin MAX_THREADS)) (i : Nat) :
    Option (Nat × Option (Fin MAX_THREADS)) := do
  let (maxPriority, _) := best
  let thread ← threadIndex i
  if (self.threads thread).isActive then
    let dynamicPriority := calculateDynamicPriority (self.threads thread)
    if dynamicPriority > maxPriority then some (dynamicPriority, some thread) else some best
  else some best

def scanChunk (self : EnhancedScheduler) (nextThread : Option (Fin MAX_THREADS)) (chunk : List Nat) :
    Option (Option (Fin MAX_THREADS)) :=
  (chunk.foldlM self.consider (0, nextThread)).map Prod.snd

/-- What the selection loop leaves in `nextThread`. -/
def selectThread (self : EnhancedScheduler) (split : LoopSplit) : Option (Option (Fin MAX_THREADS)) :=
  (split.chunks self.activeThreadCount).foldlM self.scanChunk none

/-- The process that a context belongs to. -/
def findProcess (self : EnhancedScheduler) (context : ContextPtr) : Option ProcessPtr :=
  (List.range self.processes.length).find? fun process => getContext process = context

/-- Switching from the current process, if any, to another. Saving and loading
the processes act on their contexts only. -/
def switchTo (self : EnhancedScheduler) (nextProcess : ProcessPtr) (nextThread : Fin MAX_THREADS) :
    EnhancedScheduler :=
  let preempted := match self.currentProcess with
    | some current =>
      let self := self.setState current .READY
      { self with readyQueue := self.readyQueue ++ [current] }
    | none => self
  { preempted with currentProcess := some nextProcess, currentThread := some nextThread }.setState
    nextProcess .RUNNING

def schedule (self : EnhancedScheduler) (split : LoopSplit) : Option EnhancedScheduler :=
  if self.state ≠ .RUNNING then some self
  else do
    let nextThread ← self.selectThread split
    match nextThread with
    | none => some self
    | some next =>
      if some next = self.currentThread then some self
      else
        match self.findProcess (self.threads next).processContext with
        | none => some self
        | some nextProcess =>
          if some nextProcess = self.currentProcess then some self
          else some (self.switchTo nextProcess next)

/-- The state of a process. -/
def stateOf (self : EnhancedScheduler) (process : ProcessPtr) : Option ProcessState :=
  (self.processes[process]?).map Process.state

inductive Op where
  | initialized
  | start
  | stop
  | createProcess (priority : UInt32)
  | terminateProcess (pid : Nat)
  | schedule (split : LoopSplit)

/-- One call. A call that leaves the thread array has no next state. -/
def step (self : EnhancedScheduler) : Op → Option EnhancedScheduler
  | .initialized => some self.initialized
  | .start => some self.start
  | .stop => some self.stop
  | .createProcess priority => (self.createProcess priority).map Prod.fst
  | .terminateProcess pid => self.terminateProcess pid
  | .schedule split => self.schedule split

end EnhancedScheduler

end Kernel
