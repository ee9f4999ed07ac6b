import Mathlib.Data.Fintype.Basic
import KernelcModerne.Lib.Transition

open Transition

/-! Threads that call a monitor: data under one lock, with one condition
variable. Each thread is somewhere in a call or outside all of them; the steps
of different threads interleave in any order, and a waiting thread may also wake
without being notified. -/

namespace Monitor

/-- Which of the waiting threads are notified. -/
inductive Signal where
  | one
  | all

/-- What a call does while it holds the lock: it waits on the condition, or it
leaves new data and a result and may notify. -/
inductive Outcome (σ ρ : Type) where
  | wait
  | finish (next : σ) (result : ρ) (signal : Option Signal)

/-- Where a thread is. -/
inductive Control (κ ρ : Type) where
  | idle
  | entering (call : κ)
  | holding (call : κ)
  | asleep (call : κ)
  | woken (call : κ)
  | signalling (result : ρ) (signal : Signal)
  | leaving (result : ρ)

namespace Control

variable {κ ρ : Type}

def isAsleep : Control κ ρ → Bool
  | asleep _ => true
  | _ => false

/-- The thread is between its `lock` and its `unlock`. -/
def isInside : Control κ ρ → Bool
  | holding _ => true
  | signalling _ _ => true
  | leaving _ => true
  | _ => false

def wake : Control κ ρ → Control κ ρ
  | asleep call => woken call
  | control => control

/-- Where a thread goes when its work is done. -/
def after (result : ρ) : Option Signal → Control κ ρ
  | none => leaving result
  | some signal => signalling result signal

/-- The call that the thread has made and that has not had its effect. -/
def pending : Control κ ρ → List κ
  | entering call => [call]
  | holding call => [call]
  | asleep call => [call]
  | woken call => [call]
  | _ => []

/-- The result that the thread has and has not returned. -/
def unreturned : Control κ ρ → List ρ
  | signalling result _ => [result]
  | leaving result => [result]
  | _ => []

/-- The thread is in no call, or waits. -/
def rests : Control κ ρ → Bool
  | idle => true
  | asleep _ => true
  | _ => false

@[simp] theorem isInside_wake (control : Control κ ρ) : control.wake.isInside = control.isInside := by
  cases control <;> rfl

@[simp] theorem isAsleep_wake (control : Control κ ρ) : control.wake.isAsleep = false := by
  cases control <;> rfl

@[simp] theorem pending_wake (control : Control κ ρ) : control.wake.pending = control.pending := by
  cases control <;> rfl

@[simp] theorem unreturned_wake (control : Control κ ρ) : control.wake.unreturned = control.unreturned := by
  cases control <;> rfl

end Control

structure State (τ σ κ ρ : Type) where
  data : σ
  owner : Option τ
  control : τ → Control κ ρ

/-- A step of a thread. `wakeup` is one that nobody notified; `signal` says which
waiting thread is notified where there is a choice. -/
inductive Action (τ κ : Type) where
  | call (thread : τ) (call : κ)
  | lock (thread : τ)
  | work (thread : τ)
  | signal (thread : τ) (waiting : Option τ)
  | unlock (thread : τ)
  | wakeup (thread : τ)

/-- A step that a thread takes inside a call without being woken. -/
def Action.isInternal {τ κ : Type} : Action τ κ → Bool
  | lock _ => true
  | work _ => true
  | signal _ _ => true
  | unlock _ => true
  | _ => false

variable {τ σ κ ρ : Type}

namespace State

/-- No thread is inside, or on its way. -/
def AtRest (s : State τ σ κ ρ) : Prop := ∀ thread, (s.control thread).rests = true


def initial (data : σ) : State τ σ κ ρ where
  data
  owner := none
  control := fun _ => .idle

def allWoken (s : State τ σ κ ρ) : State τ σ κ ρ :=
  { s with control := fun thread => (s.control thread).wake }

@[simp] theorem allWoken_data (s : State τ σ κ ρ) : s.allWoken.data = s.data := rfl

@[simp] theorem allWoken_owner (s : State τ σ κ ρ) : s.allWoken.owner = s.owner := rfl

@[simp] theorem allWoken_control (s : State τ σ κ ρ) (thread : τ) :
    s.allWoken.control thread = (s.control thread).wake := rfl

/-- The thread that owns the lock is the one inside. -/
def Locked (s : State τ σ κ ρ) : Prop :=
  ∀ thread, (s.control thread).isInside = true ↔ s.owner = some thread

theorem initial_locked (data : σ) : (initial data : State τ σ κ ρ).Locked := by
  intro thread
  simp [initial, Control.isInside]

theorem Locked.unique {s : State τ σ κ ρ} (h : s.Locked) {first second : τ}
    (hfirst : (s.control first).isInside = true) (hsecond : (s.control second).isInside = true) :
    first = second :=
  Option.some.inj (((h first).mp hfirst).symm.trans ((h second).mp hsecond))

theorem Locked.of_same {s t : State τ σ κ ρ} (h : s.Locked) (howner : t.owner = s.owner)
    (hcontrol : ∀ u, (t.control u).isInside = (s.control u).isInside) : t.Locked := by
  intro thread
  rw [howner, hcontrol]
  exact h thread

variable [DecidableEq τ]

/-- The thread moves to `control`. -/
def moved (s : State τ σ κ ρ) (thread : τ) (control : Control κ ρ) : State τ σ κ ρ :=
  { s with control := Function.update s.control thread control }

@[simp] theorem moved_data (s : State τ σ κ ρ) (thread : τ) (control : Control κ ρ) :
    (s.moved thread control).data = s.data := rfl

@[simp] theorem moved_owner (s : State τ σ κ ρ) (thread : τ) (control : Control κ ρ) :
    (s.moved thread control).owner = s.owner := rfl

@[simp] theorem moved_control (s : State τ σ κ ρ) (thread : τ) (control : Control κ ρ) :
    (s.moved thread control).control = Function.update s.control thread control := rfl

/-- A move that does not change what `φ` sees of its thread. -/
theorem sees_moved {β : Type} (φ : Control κ ρ → β) {s : State τ σ κ ρ} {thread : τ}
    {control : Control κ ρ} (h : φ control = φ (s.control thread)) (u : τ) :
    φ ((s.moved thread control).control u) = φ (s.control u) := by
  by_cases hu : u = thread
  · subst hu
    simpa using h
  · simp [hu]

theorem Locked.acquire {s : State τ σ κ ρ} (h : s.Locked) (hfree : s.owner = none) {thread : τ}
    {control : Control κ ρ} (hinside : control.isInside = true) :
    State.Locked { s.moved thread control with owner := some thread } := by
  intro u
  by_cases hu : u = thread
  · subst hu
    simpa using hinside
  · have houtside : ¬ (s.control u).isInside = true := fun hin => by simp [(h u).mp hin] at hfree
    simpa [hu, Ne.symm hu] using houtside

theorem Locked.release {s : State τ σ κ ρ} (h : s.Locked) {thread : τ}
    (hin : (s.control thread).isInside = true) {control : Control κ ρ} (houtside : control.isInside = false) :
    State.Locked { s.moved thread control with owner := none } := by
  intro u
  by_cases hu : u = thread
  · subst hu
    simpa using houtside
  · have hother : ¬ (s.control u).isInside = true := fun hin' => hu (h.unique hin' hin)
    simpa [hu] using hother

end State

section Steps

variable [DecidableEq τ] [Fintype τ] (body : κ → σ → Outcome σ ρ)

/-- Where the threads are after a notification: `one` wakes a thread that waits,
if there is any. -/
def notify (control : τ → Control κ ρ) : Signal → Option τ → Option (τ → Control κ ρ)
  | .one, some waiting =>
    if (control waiting).isAsleep then some (Function.update control waiting (control waiting).wake) else none
  | .one, none => if ∀ thread, (control thread).isAsleep = false then some control else none
  | .all, none => some fun thread => (control thread).wake
  | .all, some _ => none

def step (s : State τ σ κ ρ) : Action τ κ → Option (State τ σ κ ρ)
  | .call thread call =>
    match s.control thread with
    | .idle => some (s.moved thread (.entering call))
    | _ => none
  | .lock thread =>
    match s.owner, s.control thread with
    | none, .entering call => some { s.moved thread (.holding call) with owner := some thread }
    | none, .woken call => some { s.moved thread (.holding call) with owner := some thread }
    | _, _ => none
  | .work thread =>
    match s.control thread with
    | .holding call =>
      match body call s.data with
      | .wait => some { s.moved thread (.asleep call) with owner := none }
      | .finish next result signal => some { s.moved thread (.after result signal) with data := next }
    | _ => none
  | .signal thread waiting =>
    match s.control thread with
    | .signalling result signal =>
      (notify s.control signal waiting).map fun control => { s with control }.moved thread (.leaving result)
    | _ => none
  | .unlock thread =>
    match s.control thread with
    | .leaving _ => some { s.moved thread .idle with owner := none }
    | _ => none
  | .wakeup thread =>
    match s.control thread with
    | .asleep call => some (s.moved thread (.woken call))
    | _ => none

end Steps

section Moves

variable [DecidableEq τ] (body : κ → σ → Outcome σ ρ)

/-- What a step can do. -/
inductive Move (s : State τ σ κ ρ) : Action τ κ → State τ σ κ ρ → Prop where
  | call {thread : τ} {call : κ} (hidle : s.control thread = .idle) :
    Move s (.call thread call) (s.moved thread (.entering call))
  | enter {thread : τ} {call : κ} (hfree : s.owner = none) (hat : s.control thread = .entering call) :
    Move s (.lock thread) { s.moved thread (.holding call) with owner := some thread }
  | resume {thread : τ} {call : κ} (hfree : s.owner = none) (hat : s.control thread = .woken call) :
    Move s (.lock thread) { s.moved thread (.holding call) with owner := some thread }
  | sleep {thread : τ} {call : κ} (hat : s.control thread = .holding call) (hbody : body call s.data = .wait) :
    Move s (.work thread) { s.moved thread (.asleep call) with owner := none }
  | finish {thread : τ} {call : κ} {next : σ} {result : ρ} {signal : Option Signal}
    (hat : s.control thread = .holding call) (hbody : body call s.data = .finish next result signal) :
    Move s (.work thread) { s.moved thread (.after result signal) with data := next }
  | signalOne {thread waiting : τ} {result : ρ} {call : κ} (hat : s.control thread = .signalling result .one)
    (hasleep : s.control waiting = .asleep call) :
    Move s (.signal thread (some waiting)) ((s.moved waiting (.woken call)).moved thread (.leaving result))
  | signalNone {thread : τ} {result : ρ} (hat : s.control thread = .signalling result .one)
    (hnone : ∀ u, (s.control u).isAsleep = false) :
    Move s (.signal thread none) (s.moved thread (.leaving result))
  | signalAll {thread : τ} {result : ρ} (hat : s.control thread = .signalling result .all) :
    Move s (.signal thread none) (s.allWoken.moved thread (.leaving result))
  | unlock {thread : τ} {result : ρ} (hat : s.control thread = .leaving result) :
    Move s (.unlock thread) { s.moved thread .idle with owner := none }
  | wakeup {thread : τ} {call : κ} (hat : s.control thread = .asleep call) :
    Move s (.wakeup thread) (s.moved thread (.woken call))

variable {body}

theorem Move.locked {s t : State τ σ κ ρ} {a : Action τ κ} (hmove : Move body s a t) (h : s.Locked) :
    t.Locked := by
  cases hmove with
  | call hidle => exact h.of_same rfl (State.sees_moved _ (by rw [hidle]; rfl))
  | enter hfree hat => exact h.acquire hfree rfl
  | resume hfree hat => exact h.acquire hfree rfl
  | sleep hat hbody => exact h.release (by rw [hat]; rfl) rfl
  | @finish thread call next result signal hat hbody =>
    refine h.of_same rfl (State.sees_moved Control.isInside ?_)
    rw [hat]
    cases signal <;> rfl
  | @signalOne thread waiting result call hat hasleep =>
    refine h.of_same rfl fun u => ?_
    have hne : thread ≠ waiting := fun heq => by simp [heq ▸ hat] at hasleep
    rw [State.sees_moved Control.isInside (by simp [hne, hat, Control.isInside]),
      State.sees_moved Control.isInside (by simp [hasleep, Control.isInside])]
  | signalNone hat hnone => exact h.of_same rfl (State.sees_moved _ (by rw [hat]; rfl))
  | signalAll hat =>
    refine h.of_same rfl fun u => ?_
    rw [State.sees_moved Control.isInside (by rw [State.allWoken_control, hat]; rfl), State.allWoken_control,
      Control.isInside_wake]
  | unlock hat => exact h.release (by rw [hat]; rfl) rfl
  | wakeup hat => exact h.of_same rfl (State.sees_moved _ (by rw [hat]; rfl))

end Moves

section Runs

variable [DecidableEq τ] [Fintype τ] {body : κ → σ → Outcome σ ρ}

theorem notify_one_some {control control' : τ → Control κ ρ} {waiting : τ}
    (h : notify control .one (some waiting) = some control') :
    ∃ call, control waiting = .asleep call ∧ control' = Function.update control waiting (.woken call) := by
  simp only [notify, Option.ite_none_right_eq_some, Option.some.injEq] at h
  obtain ⟨hasleep, rfl⟩ := h
  cases hat : control waiting with
  | asleep call => exact ⟨call, rfl, by simp [Control.wake]⟩
  | _ => simp [hat, Control.isAsleep] at hasleep

/-- A step does one of the moves. -/
theorem move_of_step {s t : State τ σ κ ρ} {a : Action τ κ} (h : step body s a = some t) :
    Move body s a t := by
  cases a with
  | call thread call =>
    simp only [step] at h
    split at h
    · obtain rfl := Option.some.inj h
      exact .call ‹_›
    · cases h
  | lock thread =>
    simp only [step] at h
    split at h
    · obtain rfl := Option.some.inj h
      exact .enter ‹_› ‹_›
    · obtain rfl := Option.some.inj h
      exact .resume ‹_› ‹_›
    · cases h
  | work thread =>
    simp only [step] at h
    split at h
    · split at h
      · obtain rfl := Option.some.inj h
        exact .sleep ‹_› ‹_›
      · obtain rfl := Option.some.inj h
        exact .finish ‹_› ‹_›
    · cases h
  | signal thread waiting =>
    simp only [step] at h
    split at h
    · rename_i result signal hat
      obtain ⟨control, hnotify, rfl⟩ := Option.map_eq_some_iff.mp h
      cases signal with
      | one =>
        cases waiting with
        | none =>
          simp only [notify, Option.ite_none_right_eq_some, Option.some.injEq] at hnotify
          obtain ⟨hnone, rfl⟩ := hnotify
          exact .signalNone hat hnone
        | some waiting =>
          obtain ⟨call, hasleep, rfl⟩ := notify_one_some hnotify
          exact .signalOne hat hasleep
      | all =>
        cases waiting with
        | none =>
          obtain rfl := Option.some.inj hnotify
          exact .signalAll hat
        | some waiting => cases hnotify
    · cases h
  | unlock thread =>
    simp only [step] at h
    split at h
    · obtain rfl := Option.some.inj h
      exact .unlock ‹_›
    · cases h
  | wakeup thread =>
    simp only [step] at h
    split at h
    · obtain rfl := Option.some.inj h
      exact .wakeup ‹_›
    · cases h

theorem run_locked {data : σ} {ops : List (Action τ κ)} {t : State τ σ κ ρ}
    (hrun : run (step body) (.initial data) ops = some t) : t.Locked :=
  run_invariant State.Locked (fun _ _ _ h ha => (move_of_step ha).locked h) ops (State.initial_locked data) hrun

end Runs

end Monitor
