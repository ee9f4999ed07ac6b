import KernelcModerne.Lib.MonitorHistory
import KernelcModerne.Lib.MonitorWaiting

open Transition Monitor

namespace Kernel.Multimedia

/-- What the lock of the loader protects; `isRunning` is written nowhere. -/
structure LoadingQueue (α : Type) where
  loadingQueue : List α
  isRunning : Bool

namespace LoadingQueue

variable {α : Type}

def constructed : LoadingQueue α where
  loadingQueue := []
  isRunning := true

/-- A call from outside, and the block of `processingLoop` under the lock. -/
inductive Call (α : Type) where
  | queueAssetLoad (task : α)
  | nextTask

/-- For `nextTask` what the loop goes on with; it ends where that is none. -/
inductive Result (α : Type) where
  | void
  | next (task : Option α)

def queueAssetLoad (self : LoadingQueue α) (task : α) : Outcome (LoadingQueue α) (Result α) :=
  .finish { self with loadingQueue := self.loadingQueue ++ [task] } .void (some .one)

def nextTask (self : LoadingQueue α) : Outcome (LoadingQueue α) (Result α) :=
  if self.isRunning then
    match self.loadingQueue with
    | [] => .wait
    | task :: loadingQueue => .finish { self with loadingQueue } (.next (some task)) none
  else .finish self (.next none) none

def body : Call α → LoadingQueue α → Outcome (LoadingQueue α) (Result α)
  | .queueAssetLoad task, self => self.queueAssetLoad task
  | .nextTask, self => self.nextTask

def Call.waits : Call α → Bool
  | queueAssetLoad _ => false
  | nextTask => true

/-- What `nextTask` does that does not wait. -/
theorem nextTask_eq_finish {self next : LoadingQueue α} {result : Result α} {signal : Option Signal}
    (h : self.nextTask = .finish next result signal) :
    signal = none ∧ next.isRunning = self.isRunning ∧
      (self.isRunning = false ∧ next = self ∧ result = .next none ∨
        ∃ task, result = .next (some task) ∧ self.loadingQueue = task :: next.loadingQueue) := by
  unfold nextTask at h
  split at h
  · split at h
    · cases h
    · next task loadingQueue hqueue =>
      cases h
      exact ⟨rfl, rfl, .inr ⟨task, rfl, hqueue⟩⟩
  · next hstopped =>
    cases h
    exact ⟨rfl, rfl, .inl ⟨by simpa using hstopped, rfl, rfl⟩⟩

/-- Each queued load is a demand for one worker. -/
theorem notifies : Notifies (body (α := α)) Call.waits (fun self => self.loadingQueue.length)
    (fun self => self.isRunning = false) where
  wait := by
    intro call self h
    cases call with
    | queueAssetLoad task => cases h
    | nextTask =>
      rw [body, nextTask] at h
      split at h
      · next hrunning =>
        split at h
        · next hqueue => exact ⟨rfl, by rw [hqueue, List.length_nil], by simp [hrunning]⟩
        · cases h
      · cases h
  finish := by
    intro call self next result signal h hopen
    cases call with
    | queueAssetLoad task => cases h; exact ⟨hopen, by simp [Call.waits]⟩
    | nextTask =>
      obtain ⟨rfl, hrunning, ⟨hstopped, -, -⟩ | ⟨task, -, hqueue⟩⟩ := nextTask_eq_finish h
      · exact absurd (hrunning.trans hstopped) hopen
      · refine ⟨hrunning ▸ hopen, ?_⟩
        rw [hqueue, List.length_cons]
        simp [Call.waits]
  close := by
    intro call self next result signal h hclosed
    cases call with
    | queueAssetLoad task => cases h; exact .inl hclosed
    | nextTask => exact .inl ((nextTask_eq_finish h).2.1.symm.trans hclosed)

/-- The loads of the calls of a log. -/
def queued (log : List (Call α × Result α)) : List α :=
  log.filterMap fun entry => match entry.1 with
    | .queueAssetLoad task => some task
    | .nextTask => none

def Result.task? : Result α → Option α
  | void => none
  | next task => task

/-- The loads of the results of a log. -/
def taken (log : List (Call α × Result α)) : List α := log.filterMap fun entry => entry.2.task?

/-- The loader stays in its loop, and what was queued is what was taken and what
is still there. -/
theorem sequential_tasks {log : List (Call α × Result α)} {self : LoadingQueue α}
    (h : Sequential body constructed log self) :
    self.isRunning = true ∧ taken log ++ self.loadingQueue = queued log ∧
      ∀ entry ∈ log, entry.2 ≠ .next none := by
  induction h with
  | nil => exact ⟨rfl, rfl, nofun⟩
  | @snoc log data next call result signal hlog hbody ih =>
    obtain ⟨hrunning, htasks, hnone⟩ := ih
    have hentries (hresult : result ≠ .next none) : ∀ entry ∈ log ++ [(call, result)], entry.2 ≠ .next none := by
      intro entry hentry
      rw [List.mem_append, List.mem_singleton] at hentry
      obtain hentry | rfl := hentry
      · exact hnone entry hentry
      · exact hresult
    cases call with
    | queueAssetLoad task =>
      cases hbody
      refine ⟨hrunning, ?_, hentries nofun⟩
      simp only [taken, queued, List.filterMap_append] at htasks ⊢
      simp [Result.task?, ← htasks]
    | nextTask =>
      obtain ⟨-, hnext, ⟨hstopped, -, -⟩ | ⟨task, rfl, hqueue⟩⟩ := nextTask_eq_finish hbody
      · simp [hrunning] at hstopped
      · refine ⟨hnext.trans hrunning, ?_, hentries nofun⟩
        simp only [taken, queued, List.filterMap_append] at htasks ⊢
        simp [Result.task?, ← htasks, hqueue]

section Threads

variable {τ : Type} [DecidableEq τ] [Fintype τ]

/-- The loads that the loops went on with. -/
def handedOut (log : List (Observed τ (Call α) (Result α))) : List α :=
  (returns log).filterMap fun entry => entry.2.task?

/-- The calls of a log in the order of their effects. -/
def history (log : List (Observed τ (Call α) (Result α))) : List (Call α × Result α) := (effects log).map Prod.snd

end Threads

end LoadingQueue

end Kernel.Multimedia
