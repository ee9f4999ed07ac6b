import KernelcModerne.Lib.Transition
import KernelcModerne.Scheduler.EnhancedSchedulerInvariant

open Transition

namespace Kernel.EnhancedScheduler

def Op.isCreate : Op → Bool
  | .createProcess _ => true
  | .initialized | .start | .stop | .terminateProcess _ | .schedule _ => false

/-- The `createProcess` calls of a run. -/
def creates (ops : List Op) : Nat := ops.countP Op.isCreate

/-- A call stays inside the thread array exactly when it leaves at most
`MAX_THREADS` threads, and only a creation adds one. -/
theorem Tracked.step_threads {self : EnhancedScheduler} (h : self.Tracked) (op : Op) :
    ((self.step op).isSome ↔ self.activeThreadCount + creates [op] ≤ MAX_THREADS) ∧
      ∀ after, self.step op = some after →
        after.activeThreadCount = self.activeThreadCount + creates [op] := by
  have hle := h.le
  cases op with
  | initialized => exact ⟨iff_of_true rfl hle, fun after hstep => Option.some.inj hstep ▸ rfl⟩
  | start =>
    refine ⟨iff_of_true rfl hle, fun after hstep => ?_⟩
    obtain rfl := Option.some.inj hstep
    rw [start_eq]
    rfl
  | stop =>
    refine ⟨iff_of_true rfl hle, fun after hstep => ?_⟩
    obtain rfl := Option.some.inj hstep
    rw [stop_eq]
    rfl
  | createProcess priority =>
    constructor
    · rw [EnhancedScheduler.step, Option.isSome_map, h.createProcess_eq]
      by_cases hlt : self.activeThreadCount < MAX_THREADS
      · rw [dif_pos hlt]
        exact iff_of_true rfl hlt
      · rw [dif_neg hlt]
        exact iff_of_false (by decide) fun hroom => hlt hroom
    · intro after hstep
      obtain ⟨⟨created, pid⟩, hcreate, rfl⟩ := Option.map_eq_some_iff.mp hstep
      obtain ⟨_, _, hcount, _⟩ := h.createProcess_frame hcreate
      exact hcount
  | terminateProcess pid =>
    obtain ⟨after, hafter, _⟩ := h.terminateProcess_cases pid
    refine ⟨iff_of_true (Option.isSome_iff_exists.mpr ⟨after, hafter⟩) hle, fun after hstep => ?_⟩
    cases h.terminateProcess_inv hstep with
    | inl hunknown =>
      obtain ⟨rfl, _⟩ := hunknown
      rfl
    | inr hfound =>
      obtain ⟨t, _, _, rfl⟩ := hfound
      rfl
  | schedule split =>
    obtain ⟨after, hafter, _⟩ := h.schedule_cases split
    refine ⟨iff_of_true (Option.isSome_iff_exists.mpr ⟨after, hafter⟩) hle, fun after hstep => ?_⟩
    cases h.schedule_inv hstep with
    | inl hstays =>
      obtain ⟨rfl, _⟩ := hstays
      rfl
    | inr hswitches =>
      obtain ⟨_, t, _, _, _, rfl⟩ := hswitches
      exact (self.switchTo_frame t.val t).2.1

theorem creates_cons (op : Op) (ops : List Op) : creates (op :: ops) = creates [op] + creates ops := by
  unfold creates
  rw [← List.singleton_append, List.countP_append]

/-- A run stays inside the thread array exactly when it creates no more threads
than are left. -/
theorem Tracked.run_isSome_iff {self : EnhancedScheduler} (h : self.Tracked) (ops : List Op) :
    (run EnhancedScheduler.step self ops).isSome ↔ self.activeThreadCount + creates ops ≤ MAX_THREADS := by
  induction ops generalizing self with
  | nil => exact iff_of_true rfl h.le
  | cons op ops ih =>
    obtain ⟨hsome, hcount⟩ := h.step_threads op
    rw [run_cons, creates_cons, ← Nat.add_assoc]
    cases hstep : self.step op with
    | none =>
      rw [hstep] at hsome
      refine iff_of_false nofun fun hroom => ?_
      exact absurd (hsome.mpr (Nat.le_of_add_right_le hroom)) (by decide)
    | some after =>
      rw [← hcount after hstep]
      exact ih (h.step hstep)

theorem Tracked.run_le {self after : EnhancedScheduler} (h : self.Tracked) (ops : List Op)
    (hrun : run EnhancedScheduler.step self ops = some after) : after.activeThreadCount ≤ MAX_THREADS :=
  (run_invariant Tracked (fun _ _ _ h hstep => h.step hstep) ops h hrun).le

theorem run_isSome_iff_creates_le (threads : Fin MAX_THREADS → ThreadContext) (ops : List Op) :
    (run step (constructed threads) ops).isSome ↔ creates ops ≤ MAX_THREADS := by
  rw [(constructed_tracked threads).run_isSome_iff ops]
  simp [constructed]

/-- The queue holds each ready process once and no other. -/
def Queued (self : EnhancedScheduler) : Prop :=
  ∀ process, self.readyQueue.count process = if self.stateOf process = some .READY then 1 else 0

/-- What a call asks of the state before it: no ready process is forgotten,
terminated or dispatched, since none of these takes it off the queue. -/
def KeepsQueue (self : EnhancedScheduler) : Op → Prop
  | .initialized => ∀ process, self.stateOf process ≠ some .READY
  | .terminateProcess pid => ∀ process, self.idOf process = some pid → self.stateOf process ≠ some .READY
  | .schedule _ => self.state ≠ .RUNNING ∨ ¬ self.HasActive
  | .start | .stop | .createProcess _ => True

/-- A scheduler that has not dispatched yet. -/
structure Undispatched (scheduler : EnhancedScheduler) : Prop where
  tracked : scheduler.Tracked
  queued : scheduler.Queued
  idle : scheduler.currentProcess = none

theorem constructed_undispatched (threads : Fin MAX_THREADS → ThreadContext) :
    (constructed threads).Undispatched where
  tracked := constructed_tracked threads
  queued process := by simp [constructed, stateOf]
  idle := rfl

/-- A switch dispatches a process that stays on the queue. -/
theorem Undispatched.switchTo_not_queued {self : EnhancedScheduler} (h : self.Undispatched)
    {t : Fin MAX_THREADS} (hlt : t.val < self.activeThreadCount) (hactive : (self.threads t).isActive)
    (hother : self.currentProcess ≠ some t.val) : ¬ (self.switchTo t.val t).Queued := by
  intro hqueued
  have hready : self.stateOf t.val = some .READY :=
    (h.tracked.waiting t.val (h.tracked.count ▸ hlt) hother).resolve_right (h.tracked.not_terminated hactive)
  obtain ⟨_, _, _, _, _, _, hqueue⟩ := self.switchTo_frame t.val t
  have hbefore := h.queued t.val
  have hafter := hqueued t.val
  rw [hqueue, h.idle, Option.toList_none, List.append_nil, hbefore, stateOf_switchTo t hother, hready] at hafter
  simp at hafter

/-- A new process goes to the queue. -/
theorem Undispatched.createProcess {self after : EnhancedScheduler} (h : self.Undispatched)
    {priority : UInt32} {pid : Nat} (hcreate : self.createProcess priority = some (after, pid)) :
    after.Queued ∧ after.currentProcess = none := by
  obtain ⟨_, _, _, _, _, hstates, hqueue, hcurrent, _⟩ := h.tracked.createProcess_frame hcreate
  refine ⟨fun process => ?_, hcurrent.trans h.idle⟩
  rw [hqueue, hstates, List.count_append, h.queued process, h.tracked.count]
  by_cases hnew : process = self.processes.length
  · have hfresh : self.stateOf process = none := by
      rw [stateOf, hnew, List.getElem?_eq_none (Nat.le_refl _), Option.map_none]
    rw [hnew] at hfresh ⊢
    simp [hfresh]
  · have hcount : [self.processes.length].count process = 0 :=
      List.count_eq_zero.mpr fun hmem => hnew (List.mem_singleton.mp hmem)
    rw [if_neg hnew, hcount, Nat.add_zero]

/-- A process that is terminated stays on the queue, where only ready processes
belong. -/
theorem Queued.terminated_iff {self : EnhancedScheduler} (h : self.Queued) (terminated : ProcessPtr)
    (threads : Fin MAX_THREADS → ThreadContext) :
    Queued { self.setState terminated .TERMINATED with threads } ↔
      self.stateOf terminated ≠ some .READY := by
  constructor
  · intro hqueued hready
    have hafter := hqueued terminated
    have hbefore := h terminated
    rw [stateOf_terminated, if_pos rfl, hready] at hafter
    rw [if_pos hready] at hbefore
    exact absurd (hbefore.symm.trans hafter) (by simp)
  · intro hnotReady process
    rw [stateOf_terminated]
    refine (h process).trans ?_
    by_cases hprocess : terminated = process
    · rw [hprocess] at hnotReady
      simp [hprocess, hnotReady]
    · rw [if_neg hprocess]

theorem Undispatched.queued_step_iff {self after : EnhancedScheduler} (h : self.Undispatched) {op : Op}
    (hstep : self.step op = some after) :
    (after.Queued ↔ self.KeepsQueue op) ∧ (after.Queued → after.currentProcess = none) := by
  cases op with
  | initialized =>
    obtain rfl := Option.some.inj hstep
    refine ⟨?_, fun _ => h.idle⟩
    constructor
    · intro hqueued process hready
      have hcount := hqueued process
      rw [if_pos (show self.initialized.stateOf process = _ from hready)] at hcount
      cases hcount
    · intro hnone process
      exact (if_neg (hnone process)).symm
  | start =>
    obtain rfl := Option.some.inj hstep
    rw [start_eq]
    exact ⟨iff_of_true h.queued trivial, fun _ => h.idle⟩
  | stop =>
    obtain rfl := Option.some.inj hstep
    rw [stop_eq]
    exact ⟨iff_of_true h.queued trivial, fun _ => h.idle⟩
  | createProcess priority =>
    obtain ⟨⟨created, pid⟩, hcreate, rfl⟩ := Option.map_eq_some_iff.mp hstep
    obtain ⟨hqueued, hidle⟩ := h.createProcess hcreate
    exact ⟨iff_of_true hqueued trivial, fun _ => hidle⟩
  | terminateProcess pid =>
    cases h.tracked.terminateProcess_inv hstep with
    | inl hunknown =>
      obtain ⟨rfl, hnone⟩ := hunknown
      exact ⟨iff_of_true h.queued fun process hpid => absurd hpid (hnone process), fun _ => h.idle⟩
    | inr hfound =>
      obtain ⟨t, _, hid, rfl⟩ := hfound
      refine ⟨(h.queued.terminated_iff t.val _).trans ?_, fun _ => h.idle⟩
      constructor
      · intro hnotReady process hpid
        rwa [h.tracked.eq_of_idOf hpid hid]
      · intro hkeeps
        exact hkeeps t.val hid
  | schedule split =>
    cases h.tracked.schedule_inv hstep with
    | inl hstays =>
      obtain ⟨rfl, hwhy⟩ := hstays
      refine ⟨iff_of_true h.queued ?_, fun _ => h.idle⟩
      refine hwhy.imp_right fun hwhy => hwhy.resolve_right ?_
      -- no thread is current before the first dispatch
      rintro ⟨t, hcurrent, _⟩
      have hidle := h.idle
      rw [h.tracked.currentProcess_eq_iff.mpr hcurrent] at hidle
      cases hidle
    | inr hswitches =>
      obtain ⟨hstate, t, hlt, hactive, hother, rfl⟩ := hswitches
      have hnot := h.switchTo_not_queued hlt hactive hother
      refine ⟨iff_of_false hnot ?_, fun hqueued => absurd hqueued hnot⟩
      rintro (hstopped | hnone)
      · exact hstopped hstate
      · exact hnone ⟨t, hlt, hactive⟩

/-- The queue holds the ready processes all along a run, which stays inside the
thread array, exactly when the run creates at most `MAX_THREADS` processes and
no call of it forgets, terminates or dispatches a ready one. -/
theorem always_queued_iff_keepsQueue (threads : Fin MAX_THREADS → ThreadContext) (ops : List Op) :
    ((run step (constructed threads) ops).isSome ∧ Always step Queued (constructed threads) ops) ↔
      creates ops ≤ MAX_THREADS ∧ Guarded step KeepsQueue (constructed threads) ops := by
  have hstart := constructed_undispatched threads
  have hiff : Along step (fun _ _ after => after.Queued) (constructed threads) ops ↔
      Guarded step KeepsQueue (constructed threads) ops := by
    refine along_iff_along Undispatched ?_ ?_ ops hstart
    · exact fun self op after h hstep => (h.queued_step_iff hstep).1
    · exact fun self op after h hstep hqueued =>
        ⟨h.tracked.step hstep, hqueued, (h.queued_step_iff hstep).2 hqueued⟩
  have halways : Always step Queued (constructed threads) ops ↔
      Guarded step KeepsQueue (constructed threads) ops :=
    ⟨fun h => hiff.mp h.2, fun h => ⟨hstart.queued, hiff.mpr h⟩⟩
  exact and_congr (run_isSome_iff_creates_le threads ops) halways

def blankThreads : Fin MAX_THREADS → ThreadContext := fun _ => ⟨0, 0, false, false, ⟨0⟩⟩

/-- The only process is dispatched and stays on the queue. -/
theorem dispatched_process_stays_queued :
    ¬ Always step Queued (constructed blankThreads)
      [.createProcess 1, .start, .schedule .sequential] := by
  rintro ⟨_, h⟩
  obtain ⟨_, h⟩ := h _ rfl
  obtain ⟨_, h⟩ := h _ rfl
  obtain ⟨hqueued, _⟩ := h _ rfl
  exact absurd (hqueued 0) (by decide)

/-- A step leaves terminated processes terminated. -/
def Absorbs (self : EnhancedScheduler) (_ : Op) (after : EnhancedScheduler) : Prop :=
  ∀ process, self.stateOf process = some .TERMINATED → after.stateOf process = some .TERMINATED

/-- What a call asks of the state before it: no terminated process is preempted. -/
def KeepsTerminated (self : EnhancedScheduler) : Op → Prop
  | .schedule _ => self.state = .RUNNING → self.HasActive →
      ∀ process, self.currentProcess = some process → self.stateOf process ≠ some .TERMINATED
  | .initialized | .start | .stop | .createProcess _ | .terminateProcess _ => True

/-- A dispatch leaves terminated processes terminated exactly when none of them
is current: the one that is current becomes ready. -/
theorem Tracked.switchTo_absorbs_iff {self : EnhancedScheduler} (h : self.Tracked) {t : Fin MAX_THREADS}
    (hactive : (self.threads t).isActive) (hother : self.currentProcess ≠ some t.val) :
    (∀ process, self.stateOf process = some .TERMINATED →
        (self.switchTo t.val t).stateOf process = some .TERMINATED) ↔
      ∀ process, self.currentProcess = some process → self.stateOf process ≠ some .TERMINATED := by
  have hspared {process : ProcessPtr} (hterminated : self.stateOf process = some .TERMINATED) :
      t.val ≠ process := fun heq => h.not_terminated hactive (heq ▸ hterminated)
  constructor
  · intro habsorbs process hcurrent hterminated
    have hafter := habsorbs process hterminated
    rw [stateOf_switchTo t hother, if_neg (hspared hterminated), if_pos hcurrent, hterminated] at hafter
    simp at hafter
  · intro hkeeps process hterminated
    have hcurrent : self.currentProcess ≠ some process :=
      fun hcurrent => hkeeps process hcurrent hterminated
    rw [stateOf_switchTo t hother, if_neg (hspared hterminated), if_neg hcurrent]
    exact hterminated

theorem Tracked.absorbs_iff {self after : EnhancedScheduler} (h : self.Tracked) {op : Op}
    (hstep : self.step op = some after) : self.Absorbs op after ↔ self.KeepsTerminated op := by
  cases op with
  | initialized =>
    obtain rfl := Option.some.inj hstep
    exact iff_of_true (fun _ hterminated => hterminated) trivial
  | start =>
    obtain rfl := Option.some.inj hstep
    rw [start_eq]
    exact iff_of_true (fun _ hterminated => hterminated) trivial
  | stop =>
    obtain rfl := Option.some.inj hstep
    rw [stop_eq]
    exact iff_of_true (fun _ hterminated => hterminated) trivial
  | createProcess priority =>
    obtain ⟨⟨created, pid⟩, hcreate, rfl⟩ := Option.map_eq_some_iff.mp hstep
    obtain ⟨_, _, _, _, _, hstates, _⟩ := h.createProcess_frame hcreate
    refine iff_of_true (fun process hterminated => ?_) trivial
    rw [hstates, if_neg (Nat.ne_of_lt (lt_of_stateOf hterminated))]
    exact hterminated
  | terminateProcess pid =>
    refine iff_of_true (fun process hterminated => ?_) trivial
    cases h.terminateProcess_inv hstep with
    | inl hunknown =>
      obtain ⟨rfl, _⟩ := hunknown
      exact hterminated
    | inr hfound =>
      obtain ⟨t, _, _, rfl⟩ := hfound
      rw [stateOf_terminated, hterminated]
      exact ite_self _
  | schedule split =>
    cases h.schedule_inv hstep with
    | inl hstays =>
      obtain ⟨rfl, hwhy⟩ := hstays
      refine iff_of_true (fun _ hterminated => hterminated) ?_
      intro hrunning hsome process hcurrent hterminated
      obtain ⟨t, hthread, hactive⟩ :=
        (hwhy.resolve_left (not_not.mpr hrunning)).resolve_left (not_not.mpr hsome)
      have hprocess := hcurrent.symm.trans (h.currentProcess_eq_iff.mpr hthread)
      rw [Option.some.inj hprocess] at hterminated
      exact h.not_terminated hactive hterminated
    | inr hswitches =>
      obtain ⟨hstate, t, hlt, hactive, hother, rfl⟩ := hswitches
      refine (h.switchTo_absorbs_iff hactive hother).trans ?_
      constructor
      · intro hkeeps _ _
        exact hkeeps
      · intro hkeeps
        exact hkeeps hstate ⟨t, hlt, hactive⟩

/-- Terminated processes stay so along a run, which stays inside the thread
array, exactly when the run creates at most `MAX_THREADS` processes and never
calls `schedule` with a terminated process current and a thread active. -/
theorem along_absorbs_iff_keepsTerminated (threads : Fin MAX_THREADS → ThreadContext) (ops : List Op) :
    ((run step (constructed threads) ops).isSome ∧ Along step Absorbs (constructed threads) ops) ↔
      creates ops ≤ MAX_THREADS ∧ Guarded step KeepsTerminated (constructed threads) ops := by
  have halong : Along step Absorbs (constructed threads) ops ↔
      Guarded step KeepsTerminated (constructed threads) ops := by
    refine along_iff_along Tracked ?_ ?_ ops (constructed_tracked threads)
    · exact fun self op after h hstep => h.absorbs_iff hstep
    · exact fun self op after h hstep _ => h.step hstep
  exact and_congr (run_isSome_iff_creates_le threads ops) halong

/-- The current process is terminated, then preempted: it is ready again. -/
theorem preemption_revives_terminated :
    ¬ Along step Absorbs (constructed blankThreads)
      [.createProcess 1, .createProcess 1, .start, .schedule .sequential, .terminateProcess 1,
        .schedule .sequential] := by
  intro h
  obtain ⟨_, h⟩ := h _ rfl
  obtain ⟨_, h⟩ := h _ rfl
  obtain ⟨_, h⟩ := h _ rfl
  obtain ⟨_, h⟩ := h _ rfl
  obtain ⟨_, h⟩ := h _ rfl
  obtain ⟨habsorbs, _⟩ := h _ rfl
  exact absurd (habsorbs 0 (by decide)) (by decide)

/-- Every state of a run is reached without leaving the thread array, and counts
no more threads than the array has, exactly when the run creates at most
`MAX_THREADS` processes. -/
theorem inBounds_iff_creates_le (threads : Fin MAX_THREADS → ThreadContext) (ops : List Op) :
    (∀ first, first <+: ops → ∃ after, run step (constructed threads) first = some after ∧
      after.activeThreadCount ≤ MAX_THREADS) ↔ creates ops ≤ MAX_THREADS := by
  have htracked := constructed_tracked threads
  constructor
  · intro h
    obtain ⟨after, hrun, _⟩ := h ops (List.prefix_refl ops)
    rw [← run_isSome_iff_creates_le threads, hrun]
    rfl
  · rintro hle first ⟨rest, rfl⟩
    have hfirst : creates first ≤ MAX_THREADS := by
      refine Nat.le_trans ?_ hle
      unfold creates
      rw [List.countP_append]
      exact Nat.le_add_right _ _
    obtain ⟨after, hrun⟩ := Option.isSome_iff_exists.mp ((run_isSome_iff_creates_le threads first).mpr hfirst)
    exact ⟨after, hrun, htracked.run_le first hrun⟩

/-- `MAX_PROCESSES` admits one process more than the array has threads. -/
theorem create_past_threads :
    ¬ ∀ first, first <+: List.replicate (MAX_THREADS + 1) (Op.createProcess 1) →
      ∃ after, run step (constructed blankThreads) first = some after ∧
        after.activeThreadCount ≤ MAX_THREADS := by
  intro h
  obtain ⟨after, hrun, _⟩ := h _ (List.prefix_refl _)
  have hroom := run_isSome_iff_creates_le blankThreads
    (List.replicate (MAX_THREADS + 1) (Op.createProcess 1))
  rw [hrun, creates, List.countP_replicate] at hroom
  exact absurd (hroom.mp rfl) (by decide)

/-- A scheduler and the processes on which `terminateProcess` has been called. -/
structure Client where
  scheduler : EnhancedScheduler
  terminated : List ProcessPtr

namespace Client

def constructed (threads : Fin MAX_THREADS → ThreadContext) : Client where
  scheduler := .constructed threads
  terminated := []

/-- The processes a call terminates. -/
def terminates (scheduler : EnhancedScheduler) : Op → List ProcessPtr
  | .terminateProcess pid =>
    (List.range scheduler.processes.length).filter fun process => scheduler.idOf process = some pid
  | .initialized | .start | .stop | .createProcess _ | .schedule _ => []

def step (client : Client) (op : Op) : Option Client :=
  (client.scheduler.step op).map fun scheduler =>
    { scheduler, terminated := terminates client.scheduler op ++ client.terminated }

/-- At most one process is running, the current one, and the current thread
carries the current process's context. -/
structure Dispatched (client : Client) : Prop where
  running : ∀ process, client.scheduler.stateOf process = some .RUNNING →
    client.scheduler.currentProcess = some process
  unique : ∀ process other, client.scheduler.stateOf process = some .RUNNING →
    client.scheduler.stateOf other = some .RUNNING → process = other
  context : ∀ process, client.scheduler.currentProcess = some process →
    ∃ thread, client.scheduler.currentThread = some thread ∧
      (client.scheduler.threads thread).processContext = getContext process

/-- `schedule` makes no process running that was terminated. -/
def SparesTerminated (client : Client) (op : Op) (after : Client) : Prop :=
  ∀ split, op = .schedule split → ∀ process, client.scheduler.stateOf process ≠ some .RUNNING →
    after.scheduler.stateOf process = some .RUNNING → process ∉ client.terminated

/-- Terminated processes have no active thread, whatever their state. -/
structure Silenced (client : Client) : Prop where
  tracked : client.scheduler.Tracked
  silent : ∀ thread : Fin MAX_THREADS, thread.val ∈ client.terminated →
    thread.val < client.scheduler.activeThreadCount ∧ ¬ (client.scheduler.threads thread).isActive

theorem constructed_silenced (threads : Fin MAX_THREADS → ThreadContext) :
    (constructed threads).Silenced where
  tracked := constructed_tracked threads
  silent _ h := absurd h List.not_mem_nil

theorem Silenced.dispatched {client : Client} (h : client.Silenced) : client.Dispatched where
  running _ hrunning := h.tracked.running hrunning
  unique _ _ hprocess hother :=
    Option.some.inj ((h.tracked.running hprocess).symm.trans (h.tracked.running hother))
  context process hcurrent := by
    have heq := h.tracked.current
    rw [hcurrent] at heq
    obtain ⟨thread, hthread, rfl⟩ := Option.map_eq_some_iff.mp heq
    have hlt := h.tracked.current_lt thread.val hcurrent
    exact ⟨thread, hthread, h.tracked.context thread (h.tracked.count ▸ hlt)⟩

/-- Threads in use that only lose activity keep the silence. -/
theorem Silenced.of_threads {client : Client} (h : client.Silenced) {scheduler : EnhancedScheduler}
    (htracked : scheduler.Tracked) (hcount : client.scheduler.activeThreadCount ≤ scheduler.activeThreadCount)
    (hthreads : ∀ thread : Fin MAX_THREADS, thread.val < client.scheduler.activeThreadCount →
      (scheduler.threads thread).isActive → (client.scheduler.threads thread).isActive) :
    Silenced { scheduler, terminated := client.terminated } where
  tracked := htracked
  silent thread hmem := by
    obtain ⟨hlt, hinactive⟩ := h.silent thread hmem
    exact ⟨hlt.trans_le hcount, fun hactive => hinactive (hthreads thread hlt hactive)⟩

/-- A new thread is none of the silenced ones. -/
theorem Silenced.createProcess {client : Client} (h : client.Silenced) {scheduler : EnhancedScheduler}
    {priority : UInt32} {pid : Nat}
    (hcreate : client.scheduler.createProcess priority = some (scheduler, pid)) :
    Silenced { scheduler, terminated := client.terminated } := by
  obtain ⟨last, hlast, hcount, hthreads, _⟩ := h.tracked.createProcess_frame hcreate
  refine h.of_threads (h.tracked.createProcess hcreate) ?_ ?_
  · exact hcount ▸ Nat.le_succ _
  · intro thread hlt hactive
    have hne : thread ≠ last := fun heq => absurd (heq ▸ hlast) (Nat.ne_of_lt hlt)
    rwa [hthreads, Function.update_of_ne hne] at hactive

/-- The main thread of a process that is terminated goes silent. -/
theorem Silenced.terminateProcess {client : Client} (h : client.Silenced) {scheduler : EnhancedScheduler}
    {pid : Nat} (hterminate : client.scheduler.terminateProcess pid = some scheduler) :
    Silenced { scheduler, terminated :=
      terminates client.scheduler (.terminateProcess pid) ++ client.terminated } := by
  have htracked := h.tracked.terminateProcess hterminate
  have hmem {process : ProcessPtr}
      (hprocess : process ∈ terminates client.scheduler (.terminateProcess pid)) :
      client.scheduler.idOf process = some pid := of_decide_eq_true (List.mem_filter.mp hprocess).2
  refine ⟨htracked, fun thread hthread => ?_⟩
  cases h.tracked.terminateProcess_inv hterminate with
  | inl hunknown =>
    obtain ⟨rfl, hnone⟩ := hunknown
    cases List.mem_append.mp hthread with
    | inl hnew => exact absurd (hmem hnew) (hnone thread.val)
    | inr hold => exact h.silent thread hold
  | inr hfound =>
    obtain ⟨t, hlt, hid, rfl⟩ := hfound
    by_cases hthread' : thread = t
    · rw [hthread']
      refine ⟨hlt, ?_⟩
      simp
    · simp only [Function.update_of_ne hthread']
      cases List.mem_append.mp hthread with
      | inl hnew => exact absurd (Fin.ext (h.tracked.eq_of_idOf (hmem hnew) hid)) hthread'
      | inr hold => exact h.silent thread hold

theorem Silenced.step {client after : Client} (h : client.Silenced) {op : Op}
    (hstep : client.step op = some after) : after.Silenced := by
  obtain ⟨scheduler, hscheduler, rfl⟩ := Option.map_eq_some_iff.mp hstep
  have htracked := h.tracked.step hscheduler
  cases op with
  | initialized =>
    obtain rfl := Option.some.inj hscheduler
    exact h.of_threads htracked (Nat.le_refl _) fun _ _ hactive => hactive
  | start =>
    obtain rfl := Option.some.inj hscheduler
    rw [start_eq] at htracked ⊢
    exact h.of_threads htracked (Nat.le_refl _) fun _ _ hactive => hactive
  | stop =>
    obtain rfl := Option.some.inj hscheduler
    rw [stop_eq] at htracked ⊢
    exact h.of_threads htracked (Nat.le_refl _) fun _ _ hactive => hactive
  | createProcess priority =>
    obtain ⟨⟨created, pid⟩, hcreate, rfl⟩ := Option.map_eq_some_iff.mp hscheduler
    exact h.createProcess hcreate
  | terminateProcess pid => exact h.terminateProcess hscheduler
  | schedule split =>
    cases h.tracked.schedule_inv hscheduler with
    | inl hstays =>
      obtain ⟨rfl, _⟩ := hstays
      exact h
    | inr hswitches =>
      obtain ⟨_, t, _, _, _, rfl⟩ := hswitches
      obtain ⟨hthreads, hcount, _⟩ := client.scheduler.switchTo_frame t.val t
      refine h.of_threads htracked hcount.ge fun thread _ hactive => ?_
      rwa [hthreads] at hactive

/-- The process that `schedule` makes running has an active thread. -/
theorem Silenced.sparesTerminated {client after : Client} (h : client.Silenced) {op : Op}
    (hstep : client.step op = some after) : client.SparesTerminated op after := by
  rintro split rfl process hbefore hrunning hterminated
  obtain ⟨scheduler, hscheduler, rfl⟩ := Option.map_eq_some_iff.mp hstep
  cases h.tracked.schedule_inv hscheduler with
  | inl hstays =>
    obtain ⟨rfl, _⟩ := hstays
    exact hbefore hrunning
  | inr hswitches =>
    obtain ⟨_, t, _, hactive, hother, rfl⟩ := hswitches
    rw [stateOf_switchTo t hother] at hrunning
    by_cases hnext : t.val = process
    · exact (h.silent t (hnext ▸ hterminated)).2 hactive
    · rw [if_neg hnext] at hrunning
      split at hrunning
      · simp [Option.map_eq_some_iff] at hrunning
      · exact hbefore hrunning

theorem run_isSome (ops : List Op) {client : Client}
    (hrun : (run EnhancedScheduler.step client.scheduler ops).isSome) : (run step client ops).isSome := by
  induction ops generalizing client with
  | nil => rfl
  | cons op ops ih =>
    rw [run_cons, step]
    rw [run_cons] at hrun
    cases hstep : client.scheduler.step op with
    | none => simp [hstep] at hrun
    | some scheduler =>
      rw [hstep] at hrun
      exact ih hrun

/-- A run with at most `MAX_THREADS` creations has all its states, dispatches at
most one process at a time and spares the terminated ones. -/
theorem always_dispatched (threads : Fin MAX_THREADS → ThreadContext) (ops : List Op)
    (hcreates : creates ops ≤ MAX_THREADS) :
    (run step (constructed threads) ops).isSome ∧ Always step Dispatched (constructed threads) ops ∧
      Along step SparesTerminated (constructed threads) ops := by
  have hstart := constructed_silenced threads
  have hsilenced : Always step Silenced (constructed threads) ops :=
    always_of_step (fun _ _ _ h hstep => h.step hstep) ops hstart
  have hspares : Along step SparesTerminated (constructed threads) ops := by
    refine along_of_step Silenced ?_ ops hstart
    exact fun client op after h hstep => ⟨h.sparesTerminated hstep, h.step hstep⟩
  have hdefined : (run step (constructed threads) ops).isSome :=
    run_isSome ops ((run_isSome_iff_creates_le threads ops).mpr hcreates)
  exact ⟨hdefined, hsilenced.imp fun _ h => h.dispatched, hspares⟩

theorem always_dispatched_two_processes :
    (run step (constructed blankThreads) [.createProcess 1, .createProcess 20, .start,
      .schedule .sequential, .terminateProcess 2, .schedule .sequential]).isSome ∧
    Always step Dispatched (constructed blankThreads) [.createProcess 1, .createProcess 20, .start,
      .schedule .sequential, .terminateProcess 2, .schedule .sequential] ∧
    Along step SparesTerminated (constructed blankThreads) [.createProcess 1, .createProcess 20, .start,
      .schedule .sequential, .terminateProcess 2, .schedule .sequential] :=
  always_dispatched blankThreads _ (by decide)

end Client

end Kernel.EnhancedScheduler
