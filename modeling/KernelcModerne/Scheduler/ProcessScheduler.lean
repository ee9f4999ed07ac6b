import Mathlib.Data.List.Count
import Mathlib.Logic.Function.Basic
import KernelcModerne.Lib.Transition

open Transition

namespace Kernel

namespace ProcessScheduler

inductive ProcessState where
  | READY
  | RUNNING
  | SLEEPING
  deriving DecidableEq

/-- A `Process*`. -/
abbrev Process := Nat

end ProcessScheduler

/-- A scheduler with the processes that it points to. -/
structure ProcessScheduler where
  state : ProcessScheduler.Process → ProcessScheduler.ProcessState
  currentProcess : ProcessScheduler.Process
  readyQueue : List ProcessScheduler.Process

namespace ProcessScheduler

variable (contextSwitch : (Process → ProcessState) → Process → Process → Process → ProcessState)

/-- `schedule()`, where `cfs.pickNext()` answers `next`. -/
def schedule (self : ProcessScheduler) (next : Option Process) : ProcessScheduler :=
  match next with
  | some next => { self with state := contextSwitch self.state self.currentProcess next }
  | none => self

/-- `yield()`, called by the process `current`. -/
def yield (self : ProcessScheduler) (current : Process) (next : Option Process) : ProcessScheduler :=
  { self with
    state := Function.update self.state current .READY
    readyQueue := self.readyQueue ++ [current] }.schedule contextSwitch next

/-- The callback of the timer that `sleep` sets. -/
def wake (self : ProcessScheduler) (current : Process) : ProcessScheduler :=
  { self with
    state := Function.update self.state current .READY
    readyQueue := self.readyQueue ++ [current] }

/-- `sleep(duration)`, called by the process `current`, without the timer. -/
def sleep (self : ProcessScheduler) (current : Process) (next : Option Process) : ProcessScheduler :=
  { self with state := Function.update self.state current .SLEEPING }.yield contextSwitch current next

/-- A timer that has not called back. -/
structure Timer where
  process : Process
  deadline : Nat

/-- A scheduler and the timers that are set. -/
structure Client where
  scheduler : ProcessScheduler
  timers : List Timer
  now : Nat

inductive Op where
  | yield (current : Process) (next : Option Process)
  | sleep (current : Process) (duration : Nat) (next : Option Process)
  | elapse (duration : Nat)
  | fire (index : Nat)

namespace Client

/-- One call, or a timer's callback, which comes when its duration has
elapsed. -/
def step (client : Client) : Op → Option Client
  | .yield current next =>
    some { client with scheduler := client.scheduler.yield contextSwitch current next }
  | .sleep current duration next =>
    some
      { client with
        scheduler := client.scheduler.sleep contextSwitch current next
        timers := ⟨current, client.now + duration⟩ :: client.timers }
  | .elapse duration => some { client with now := client.now + duration }
  | .fire index =>
    match client.timers[index]? with
    | some timer =>
      if timer.deadline ≤ client.now then
        some
          { client with
            scheduler := client.scheduler.wake timer.process
            timers := client.timers.eraseIdx index }
      else none
    | none => none

/-- The processes with a timer sleep and do not wait for the processor. -/
def Asleep (client : Client) : Prop :=
  ∀ timer ∈ client.timers,
    client.scheduler.state timer.process = .SLEEPING ∧ timer.process ∉ client.scheduler.readyQueue

/-- A timer's process is queued once by its callback. -/
def WakesOnce (client : Client) (op : Op) (after : Client) : Prop :=
  match op with
  | .fire index => ∀ timer, client.timers[index]? = some timer →
      after.scheduler.readyQueue.count timer.process = 1
  | _ => True

/-- After the step sleeping processes sleep, and one that it wakes is queued
once. -/
def KeepsSleep (client : Client) (op : Op) (after : Client) : Prop :=
  after.Asleep ∧ client.WakesOnce op after

/-- The call is not `sleep`. -/
def NotSleep (_client : Client) : Op → Prop
  | .sleep _ _ _ => False
  | _ => True

variable {contextSwitch}

theorem readyQueue_schedule (scheduler : ProcessScheduler) (next : Option Process) :
    (scheduler.schedule contextSwitch next).readyQueue = scheduler.readyQueue := by
  cases next <;> rfl

/-- A process that goes to sleep is queued by the `yield` with which it gives up
the processor, and its timer is set. -/
theorem not_asleep_of_sleep {client after : Client} {current : Process} {duration : Nat} {next : Option Process}
    (hstep : client.step contextSwitch (.sleep current duration next) = some after) : ¬ after.Asleep := by
  simp only [step, Option.some.injEq] at hstep
  subst hstep
  intro h
  have hqueued := (h _ List.mem_cons_self).2
  rw [sleep, yield, readyQueue_schedule] at hqueued
  exact hqueued (List.mem_append_right _ List.mem_cons_self)

/-- Without timers, and without `sleep`, none is set and none calls back. -/
theorem step_of_no_timers {client after : Client} {op : Op} (htimers : client.timers = [])
    (hop : client.NotSleep op) (hstep : client.step contextSwitch op = some after) :
    after.timers = [] ∧ client.WakesOnce op after := by
  cases op with
  | yield current next =>
    simp only [step, Option.some.injEq] at hstep
    exact ⟨hstep ▸ htimers, trivial⟩
  | sleep current duration next => exact hop.elim
  | elapse duration =>
    simp only [step, Option.some.injEq] at hstep
    exact ⟨hstep ▸ htimers, trivial⟩
  | fire index => simp [step, htimers] at hstep

theorem step_iff_notSleep {client after : Client} {op : Op} (htimers : client.timers = [])
    (hstep : client.step contextSwitch op = some after) :
    client.KeepsSleep op after ↔ client.NotSleep op := by
  constructor
  · rintro ⟨hasleep, _⟩
    cases op with
    | sleep current duration next => exact not_asleep_of_sleep hstep hasleep
    | yield current next => trivial
    | elapse duration => trivial
    | fire index => trivial
  · intro hop
    obtain ⟨hafter, hwakes⟩ := step_of_no_timers htimers hop hstep
    refine ⟨?_, hwakes⟩
    rw [Asleep, hafter]
    exact nofun

/-- The processes of a run sleep until they are woken, and are then queued once,
exactly when none ever calls `sleep`. -/
theorem along_sleeps_iff_notSleep
    (contextSwitch : (Process → ProcessState) → Process → Process → Process → ProcessState)
    (scheduler : ProcessScheduler) (now : Nat) (ops : List Op) :
    Along (step contextSwitch) KeepsSleep ⟨scheduler, [], now⟩ ops ↔
      Guarded (step contextSwitch) NotSleep ⟨scheduler, [], now⟩ ops := by
  apply along_iff_along (fun client => client.timers = []) _ _ ops rfl
  · intro client op after htimers hstep
    exact step_iff_notSleep htimers hstep
  · intro client op after htimers hstep h
    exact (step_of_no_timers htimers ((step_iff_notSleep htimers hstep).mp h) hstep).1

/-- A scheduler whose process 1 runs, and no timers. -/
def idle : Client where
  scheduler := ⟨fun _ => .RUNNING, 1, []⟩
  timers := []
  now := 0

theorem sleeper_waits_for_processor :
    ¬ Along (step fun state _ next => Function.update state next .RUNNING) KeepsSleep idle [.sleep 1 10 none] := by
  intro h
  obtain ⟨⟨hasleep, _⟩, _⟩ := h _ rfl
  exact absurd (hasleep _ List.mem_cons_self).2 (by decide)

end Client

end ProcessScheduler

end Kernel
