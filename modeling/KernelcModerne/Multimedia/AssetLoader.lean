import Mathlib.Data.List.Basic
import KernelcModerne.Lib.Transition

open Transition

namespace Kernel.Multimedia

/-- A task of the thread pool: a call of `processingLoop`, or the load of one
asset. -/
inductive PoolTask where
  | processingLoop
  | loadAsset (path : String)
  deriving DecidableEq

/-- What a thread of the pool does: nothing, a load, or `processingLoop`, where
it waits on `queueCV` or runs a task of `loadingQueue`. -/
inductive Worker where
  | idle
  | loadsAsset (path : String)
  | waits
  | runsQueued (path : String)
  deriving DecidableEq

def Worker.inLoop : Worker → Bool
  | .waits | .runsQueued _ => true
  | .idle | .loadsAsset _ => false

/-- The loader over a pool of `threads` that take the tasks in the order they
came in. `workersStarted` counts the iterations of `startWorkers`. -/
structure AssetLoader where
  threads : List Worker
  tasks : List PoolTask
  workersStarted : Nat
  loadingQueue : List String
  isRunning : Bool

namespace AssetLoader

/-- The loader when its constructor enters `startWorkers`. -/
def constructed (threadCount : Nat) : AssetLoader where
  threads := List.replicate threadCount .idle
  tasks := []
  workersStarted := 0
  loadingQueue := []
  isRunning := true

def getThreadCount (self : AssetLoader) : Nat := self.threads.length

def enqueue (self : AssetLoader) (task : PoolTask) : AssetLoader :=
  { self with tasks := self.tasks ++ [task] }

/-- One iteration of `startWorkers`. -/
def startWorker (self : AssetLoader) : Option AssetLoader :=
  if self.workersStarted < self.getThreadCount then
    some { self.enqueue .processingLoop with workersStarted := self.workersStarted + 1 }
  else none

/-- The loader is used once its constructor is done. -/
def loadAssetAsync (self : AssetLoader) (path : String) : Option AssetLoader :=
  if self.workersStarted < self.getThreadCount then none else some (self.enqueue (.loadAsset path))

def queueAssetLoad (self : AssetLoader) (path : String) : Option AssetLoader :=
  if self.workersStarted < self.getThreadCount then none
  else some { self with loadingQueue := self.loadingQueue ++ [path] }

def setThread (self : AssetLoader) (thread : Nat) (worker : Worker) : AssetLoader :=
  { self with threads := self.threads.set thread worker }

/-- The head of the `while` of `processingLoop`. -/
def loopHead (self : AssetLoader) : Worker := if self.isRunning then .waits else .idle

/-- An idle thread takes the oldest task of the pool. -/
def takeTask (self : AssetLoader) (thread : Nat) : Option AssetLoader :=
  match self.threads[thread]?, self.tasks with
  | some .idle, .processingLoop :: rest => some ({ self with tasks := rest }.setThread thread self.loopHead)
  | some .idle, .loadAsset path :: rest => some ({ self with tasks := rest }.setThread thread (.loadsAsset path))
  | _, _ => none

/-- The wait of `processingLoop` ends. -/
def wake (self : AssetLoader) (thread : Nat) : Option AssetLoader :=
  match self.threads[thread]? with
  | some .waits =>
    if !self.isRunning then some (self.setThread thread .idle)
    else
      match self.loadingQueue with
      | [] => none
      | path :: rest => some ({ self with loadingQueue := rest }.setThread thread (.runsQueued path))
  | _ => none

/-- A load ends: a task of the pool, or one that `processingLoop` runs. -/
def finish (self : AssetLoader) (thread : Nat) : Option AssetLoader :=
  match self.threads[thread]? with
  | some (.loadsAsset _) => some (self.setThread thread .idle)
  | some (.runsQueued _) => some (self.setThread thread self.loopHead)
  | _ => none

inductive Op where
  | startWorker
  | loadAssetAsync (path : String)
  | queueAssetLoad (path : String)
  | takeTask (thread : Nat)
  | wake (thread : Nat)
  | finish (thread : Nat)

def step (self : AssetLoader) : Op → Option AssetLoader
  | .startWorker => self.startWorker
  | .loadAssetAsync path => self.loadAssetAsync path
  | .queueAssetLoad path => self.queueAssetLoad path
  | .takeTask thread => self.takeTask thread
  | .wake thread => self.wake thread
  | .finish thread => self.finish thread

/-- Some thread is not occupied by `processingLoop`. -/
def FreeThread (self : AssetLoader) : Prop := ∃ worker ∈ self.threads, worker.inLoop = false

/-- A thread does not take the last of the loops that `startWorkers` submits. -/
def LeavesLoop (self : AssetLoader) : Op → Prop
  | .takeTask _ => self.workersStarted < self.getThreadCount ∨ 1 < self.tasks.count .processingLoop
  | _ => True

def occupied (self : AssetLoader) : Nat := self.threads.countP Worker.inLoop

theorem freeThread_iff (self : AssetLoader) : self.FreeThread ↔ self.occupied < self.getThreadCount := by
  have hle : self.occupied ≤ self.getThreadCount := List.countP_le_length
  have hall : self.occupied = self.getThreadCount ↔ ∀ worker ∈ self.threads, worker.inLoop = true :=
    List.countP_eq_length
  constructor
  · rintro ⟨worker, hmem, hfree⟩
    refine lt_of_le_of_ne hle fun heq => ?_
    rw [hall.mp heq worker hmem] at hfree
    cases hfree
  · intro hlt
    by_contra hnone
    refine hlt.ne (hall.mpr fun worker hmem => ?_)
    by_contra hfree
    exact hnone ⟨worker, hmem, eq_false_of_ne_true hfree⟩

theorem setThread_getThreadCount (self : AssetLoader) (thread : Nat) (worker : Worker) :
    (self.setThread thread worker).getThreadCount = self.getThreadCount := List.length_set

/-- A thread that stays in the loop, or out of it, leaves the count. -/
theorem occupied_setThread {self : AssetLoader} {thread : Nat} {before : Worker}
    (h : self.threads[thread]? = some before) (worker : Worker) :
    (self.setThread thread worker).occupied + (if before.inLoop then 1 else 0) =
      self.occupied + if worker.inLoop then 1 else 0 := by
  obtain ⟨hlt, hbefore⟩ := List.getElem?_eq_some_iff.mp h
  have hset : (self.setThread thread worker).occupied = _ := List.countP_set hlt
  have hcount := List.boole_getElem_le_countP (p := Worker.inLoop) hlt
  rw [hset, hbefore]
  rw [hbefore] at hcount
  unfold occupied
  omega

/-- The loops were submitted before any load, and each is with a thread or still
in front of the queue; no thread has come to a load. -/
structure Tracked (loader : AssetLoader) : Prop where
  running : loader.isRunning = true
  started : loader.workersStarted ≤ loader.getThreadCount
  tasks : ∃ waiting paths,
    loader.tasks = List.replicate waiting .processingLoop ++ paths.map .loadAsset ∧
      loader.occupied + waiting = loader.workersStarted ∧
      (loader.workersStarted < loader.getThreadCount → paths = [])
  noLoad : ∀ path, .loadsAsset path ∉ loader.threads

variable {loader after : AssetLoader}

theorem constructed_tracked (threadCount : Nat) : (constructed threadCount).Tracked where
  running := rfl
  started := Nat.zero_le _
  tasks := ⟨0, [], rfl, by simp [constructed, occupied, Worker.inLoop, List.countP_replicate], fun _ => rfl⟩
  noLoad path hmem := by
    have hidle := List.eq_of_mem_replicate hmem
    cases hidle

theorem constructed_freeThread_iff (threadCount : Nat) : (constructed threadCount).FreeThread ↔ 0 < threadCount := by
  rw [freeThread_iff]
  simp [constructed, occupied, getThreadCount, Worker.inLoop, List.countP_replicate]

theorem mem_setThread {thread : Nat} {worker other : Worker}
    (h : other ∈ (loader.setThread thread worker).threads) : other ∈ loader.threads ∨ other = worker :=
  List.mem_or_eq_of_mem_set h

/-- A step that leaves as many threads in the loop. -/
structure Keeps (loader after : AssetLoader) : Prop where
  tracked : after.Tracked
  threadCount : after.getThreadCount = loader.getThreadCount
  occupied : after.occupied = loader.occupied

/-- A step in which one more thread enters the loop. -/
structure Occupies (loader after : AssetLoader) : Prop where
  tracked : after.Tracked
  threadCount : after.getThreadCount = loader.getThreadCount
  workersStarted : after.workersStarted = loader.workersStarted
  occupied : after.occupied = loader.occupied + 1

theorem Tracked.startWorker (h : loader.Tracked) (hstep : loader.startWorker = some after) :
    loader.Keeps after := by
  obtain ⟨waiting, paths, htasks, hwaiting, hpaths⟩ := h.tasks
  obtain ⟨hlt, hafter⟩ := Option.ite_none_right_eq_some.mp hstep
  obtain rfl := Option.some.inj hafter
  refine ⟨⟨h.running, hlt, ⟨waiting + 1, [], ?_, ?_, fun _ => rfl⟩, h.noLoad⟩, rfl, rfl⟩
  · simp only [enqueue, htasks, hpaths hlt, List.map_nil, List.append_nil, List.replicate_succ']
  · exact congrArg (· + 1) hwaiting

theorem Tracked.loadAssetAsync (h : loader.Tracked) {path : String}
    (hstep : loader.loadAssetAsync path = some after) : loader.Keeps after := by
  obtain ⟨waiting, paths, htasks, hwaiting, _⟩ := h.tasks
  obtain ⟨hdone, hafter⟩ := Option.ite_none_left_eq_some.mp hstep
  obtain rfl := Option.some.inj hafter
  refine ⟨⟨h.running, h.started, ⟨waiting, paths ++ [path], ?_, hwaiting, fun hlt => absurd hlt hdone⟩,
    h.noLoad⟩, rfl, rfl⟩
  simp only [enqueue, htasks, List.map_append, List.map_singleton, List.append_assoc]

theorem Tracked.queueAssetLoad (h : loader.Tracked) {path : String}
    (hstep : loader.queueAssetLoad path = some after) : loader.Keeps after := by
  obtain ⟨_, hafter⟩ := Option.ite_none_left_eq_some.mp hstep
  obtain rfl := Option.some.inj hafter
  exact ⟨⟨h.running, h.started, h.tasks, h.noLoad⟩, rfl, rfl⟩

/-- A thread inside the loop that goes on with it. -/
theorem Tracked.stay (h : loader.Tracked) {thread : Nat} {before : Worker}
    (hbefore : loader.threads[thread]? = some before) (hin : before.inLoop = true) {worker : Worker}
    (hstays : worker.inLoop = true) (loadingQueue : List String) :
    loader.Keeps ({ loader with loadingQueue }.setThread thread worker) := by
  have hcount := occupied_setThread hbefore worker
  rw [if_pos hin, if_pos hstays, Nat.add_right_cancel_iff] at hcount
  have hoccupied : ({ loader with loadingQueue }.setThread thread worker).occupied = loader.occupied := hcount
  have hthreads : ({ loader with loadingQueue }.setThread thread worker).getThreadCount = loader.getThreadCount :=
    setThread_getThreadCount _ _ _
  refine ⟨⟨h.running, hthreads ▸ h.started, ?_, fun path hmem => ?_⟩, hthreads, hoccupied⟩
  · rw [hoccupied, hthreads]
    exact h.tasks
  · cases mem_setThread hmem with
    | inl hold => exact h.noLoad path hold
    | inr hnew =>
      rw [← hnew] at hstays
      cases hstays

theorem Tracked.wake (h : loader.Tracked) {thread : Nat} (hstep : loader.wake thread = some after) :
    loader.Keeps after := by
  simp only [AssetLoader.wake] at hstep
  split at hstep
  · next hwaits =>
    rw [if_neg (by simp [h.running])] at hstep
    split at hstep
    · cases hstep
    · next path rest hqueue =>
      obtain rfl := Option.some.inj hstep
      have hstays : (Worker.runsQueued path).inLoop = true := rfl
      exact h.stay hwaits rfl hstays rest
  · cases hstep

theorem Tracked.finish (h : loader.Tracked) {thread : Nat} (hstep : loader.finish thread = some after) :
    loader.Keeps after := by
  simp only [AssetLoader.finish] at hstep
  split at hstep
  · next path hloads => exact absurd (List.mem_of_getElem? hloads) (h.noLoad path)
  · next path hruns =>
    obtain rfl := Option.some.inj hstep
    have hhead : loader.loopHead = .waits := if_pos h.running
    have hstays : Worker.waits.inLoop = true := rfl
    rw [hhead]
    exact h.stay hruns rfl hstays loader.loadingQueue
  · cases hstep

/-- Where a thread is idle, the queue does not start with a load: all loops
would be with threads then, and none would be idle. -/
theorem Tracked.takes_loop (h : loader.Tracked) {thread : Nat} (hidle : loader.threads[thread]? = some .idle)
    {task : PoolTask} {rest : List PoolTask} (hqueue : loader.tasks = task :: rest) :
    ∃ waiting paths, task = .processingLoop ∧
      rest = List.replicate waiting .processingLoop ++ paths.map .loadAsset ∧
      loader.occupied + (waiting + 1) = loader.workersStarted ∧
      (loader.workersStarted < loader.getThreadCount → paths = []) := by
  obtain ⟨waiting, paths, htasks, hwaiting, hpaths⟩ := h.tasks
  have hfree : loader.FreeThread := ⟨.idle, List.mem_of_getElem? hidle, rfl⟩
  rw [freeThread_iff] at hfree
  rw [hqueue] at htasks
  cases waiting with
  | zero =>
    rw [hpaths (by omega)] at htasks
    cases htasks
  | succ waiting =>
    rw [List.replicate_succ, List.cons_append, List.cons.injEq] at htasks
    exact ⟨waiting, paths, htasks.1, htasks.2, hwaiting, hpaths⟩

theorem Tracked.takeTask (h : loader.Tracked) {thread : Nat} (hstep : loader.takeTask thread = some after) :
    loader.Occupies after := by
  simp only [AssetLoader.takeTask] at hstep
  split at hstep
  · next rest hidle hqueue =>
    obtain ⟨waiting, paths, _, hrest, hwaiting, hpaths⟩ := h.takes_loop hidle hqueue
    obtain rfl := Option.some.inj hstep
    have hhead : loader.loopHead = .waits := if_pos h.running
    have hcount := occupied_setThread hidle .waits
    have hoccupied : ({ loader with tasks := rest }.setThread thread .waits).occupied = loader.occupied + 1 := hcount
    have hthreads : ({ loader with tasks := rest }.setThread thread .waits).getThreadCount =
        loader.getThreadCount := setThread_getThreadCount _ _ _
    rw [hhead]
    refine ⟨⟨h.running, hthreads ▸ h.started, ?_, fun path hmem => ?_⟩, hthreads, rfl, hoccupied⟩
    · refine ⟨waiting, paths, hrest, ?_, hthreads ▸ hpaths⟩
      rw [hoccupied]
      exact (Nat.succ_add_eq_add_succ _ _).trans hwaiting
    · cases mem_setThread hmem with
      | inl hold => exact h.noLoad path hold
      | inr hnew => cases hnew
  · next path rest hidle hqueue =>
    obtain ⟨_, _, hloop, _⟩ := h.takes_loop hidle hqueue
    cases hloop
  · cases hstep

theorem Tracked.step (h : loader.Tracked) {op : Op} (hstep : loader.step op = some after) : after.Tracked := by
  cases op with
  | startWorker => exact (h.startWorker hstep).tracked
  | loadAssetAsync path => exact (h.loadAssetAsync hstep).tracked
  | queueAssetLoad path => exact (h.queueAssetLoad hstep).tracked
  | takeTask thread => exact (h.takeTask hstep).tracked
  | wake thread => exact (h.wake hstep).tracked
  | finish thread => exact (h.finish hstep).tracked

theorem Keeps.freeThread (h : loader.Keeps after) (hfree : loader.FreeThread) : after.FreeThread := by
  rw [freeThread_iff] at hfree ⊢
  rw [h.threadCount, h.occupied]
  exact hfree

theorem count_loops (waiting : Nat) (paths : List String) :
    (List.replicate waiting PoolTask.processingLoop ++ paths.map PoolTask.loadAsset).count
      PoolTask.processingLoop = waiting := by
  rw [List.count_append, List.count_replicate_self, List.count_eq_zero_of_not_mem, Nat.add_zero]
  simp

/-- Each loop that was submitted is with a thread or in the queue. -/
theorem Tracked.occupied_eq (h : loader.Tracked) :
    loader.occupied + loader.tasks.count .processingLoop = loader.workersStarted := by
  obtain ⟨waiting, paths, htasks, hwaiting, _⟩ := h.tasks
  rw [htasks, count_loops, hwaiting]

theorem Tracked.freeThread_step_iff (h : loader.Tracked) (hfree : loader.FreeThread) {op : Op}
    (hstep : loader.step op = some after) : after.FreeThread ↔ loader.LeavesLoop op := by
  cases op with
  | takeTask thread =>
    have htakes := h.takeTask hstep
    have hrest := htakes.tracked.occupied_eq
    have hoccupied := h.occupied_eq
    have hstarted := h.started
    rw [freeThread_iff, htakes.threadCount]
    rw [htakes.workersStarted, htakes.occupied] at hrest
    simp only [LeavesLoop, htakes.occupied]
    omega
  | startWorker => exact iff_of_true ((h.startWorker hstep).freeThread hfree) trivial
  | loadAssetAsync path => exact iff_of_true ((h.loadAssetAsync hstep).freeThread hfree) trivial
  | queueAssetLoad path => exact iff_of_true ((h.queueAssetLoad hstep).freeThread hfree) trivial
  | wake thread => exact iff_of_true ((h.wake hstep).freeThread hfree) trivial
  | finish thread => exact iff_of_true ((h.finish hstep).freeThread hfree) trivial

/-- A thread of the pool is free of `processingLoop` in every state of a run
exactly when there are threads and no thread takes the last of the loops. -/
theorem free_thread_iff (threadCount : Nat) (ops : List Op) :
    Always step FreeThread (constructed threadCount) ops ↔
      0 < threadCount ∧ Guarded step LeavesLoop (constructed threadCount) ops := by
  have hiff (hpos : 0 < threadCount) :
      Along step (fun _ _ after => after.FreeThread) (constructed threadCount) ops ↔
        Guarded step LeavesLoop (constructed threadCount) ops :=
    along_iff_along (fun loader : AssetLoader => loader.Tracked ∧ loader.FreeThread)
      (fun loader op after h (hstep : loader.step op = some after) => h.1.freeThread_step_iff h.2 hstep)
      (fun loader op after h (hstep : loader.step op = some after) hfree => ⟨h.1.step hstep, hfree⟩)
      ops ⟨constructed_tracked threadCount, (constructed_freeThread_iff threadCount).mpr hpos⟩
  rw [Always, constructed_freeThread_iff]
  exact and_congr_right hiff

/-- No thread ever comes to a load submitted by `loadAssetAsync`. -/
theorem loads_never_run (threadCount : Nat) (ops : List Op) :
    Always step (fun loader => ∀ path, .loadsAsset path ∉ loader.threads) (constructed threadCount) ops := by
  have htracked : Always step Tracked (constructed threadCount) ops :=
    always_of_step (fun _ _ _ h hstep => h.step hstep) ops (constructed_tracked threadCount)
  exact htracked.imp fun _ h => h.noLoad

/-- Four threads take the four loops; a load stays in the queue. -/
theorem loops_take_every_thread :
    ¬ Always step FreeThread (constructed 4)
      [.startWorker, .startWorker, .startWorker, .startWorker, .takeTask 0, .takeTask 1, .takeTask 2,
        .takeTask 3] := by
  rintro ⟨_, h⟩
  obtain ⟨_, h⟩ := h _ rfl
  obtain ⟨_, h⟩ := h _ rfl
  obtain ⟨_, h⟩ := h _ rfl
  obtain ⟨_, h⟩ := h _ rfl
  obtain ⟨_, h⟩ := h _ rfl
  obtain ⟨_, h⟩ := h _ rfl
  obtain ⟨_, h⟩ := h _ rfl
  obtain ⟨hfree, _⟩ := h _ rfl
  rw [freeThread_iff] at hfree
  exact absurd hfree (by decide)

end AssetLoader

end Kernel.Multimedia
