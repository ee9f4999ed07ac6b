import Mathlib.Algebra.Group.Int.Defs
import Mathlib.Logic.Function.Basic
import KernelcModerne.Lib.Transition

open Transition

namespace Win32Compat

abbrev HRESULT : Type := Int

def S_OK : HRESULT := 0
def S_FALSE : HRESULT := 1
def CO_E_NOTINITIALIZED : HRESULT := 0x800401F0 - 2 ^ 32

def SUCCEEDED (hr : HRESULT) : Bool := decide (0 ≤ hr)

/-- The one manager of the process; `threadInitMap` answers false for a thread
that it has no entry for. -/
structure ComManager where
  initialized : Bool
  threadInitMap : Nat → Bool

/-- The calls of the manager that touch COM. -/
inductive Call where
  | initializeCall
  | uninitializeCall
  | createInstanceCall

/-- What a thread does next inside a call, or `idle` between calls. -/
inductive Next where
  | idle
  | coInitializeEx
  | recordThread (hr : HRESULT)
  | setInitialized (hr : HRESULT)
  | coUninitializeCall
  | clearThread
  | coCreateInstance

/-- The manager and its threads. For each thread: what it does next, and how
often its `CoInitializeEx` succeeded and it called `CoUninitialize`. `returned`
holds the results of the calls that ended. -/
structure Process where
  manager : ComManager
  next : Nat → Next
  inits : Nat → Nat
  uninits : Nat → Nat
  returned : List (Nat × HRESULT)

namespace Process

def started : Process where
  manager := { initialized := false, threadInitMap := fun _ => false }
  next _ := .idle
  inits _ := 0
  uninits _ := 0
  returned := []

def goTo (self : Process) (thread : Nat) (next : Next) : Process :=
  { self with next := Function.update self.next thread next }

def returns (self : Process) (thread : Nat) (hr : HRESULT) : Process :=
  { self.goTo thread .idle with returned := (thread, hr) :: self.returned }

/-- `initialize()`, up to the test of the flag. -/
def initializeCom (self : Process) (thread : Nat) : Process :=
  if self.manager.initialized then self.returns thread S_FALSE
  else self.goTo thread .coInitializeEx

/-- `uninitialize()`, up to the test of the thread's entry. -/
def uninitializeCom (self : Process) (thread : Nat) : Process :=
  if self.manager.threadInitMap thread then self.goTo thread .coUninitializeCall else self

/-- `createInstance(...)`, up to the test of the flag. -/
def createInstance (self : Process) (thread : Nat) : Process :=
  if !self.manager.initialized then self.returns thread CO_E_NOTINITIALIZED
  else self.goTo thread .coCreateInstance

/-- The next action of a thread inside a call. `hr` is what COM answers, where
the action is a call to it. -/
def advance (self : Process) (thread : Nat) (hr : HRESULT) : Option Process :=
  match self.next thread with
  | .idle => none
  | .coInitializeEx =>
    if SUCCEEDED hr then
      some
        { self.goTo thread (.recordThread hr) with
          inits := Function.update self.inits thread (self.inits thread + 1) }
    else some (self.returns thread hr)
  | .recordThread hr =>
    some
      { self.goTo thread (.setInitialized hr) with
        manager :=
          { self.manager with
            threadInitMap := Function.update self.manager.threadInitMap thread true } }
  | .setInitialized hr =>
    some { self.returns thread hr with manager := { self.manager with initialized := true } }
  | .coUninitializeCall =>
    some
      { self.goTo thread .clearThread with
        uninits := Function.update self.uninits thread (self.uninits thread + 1) }
  | .clearThread =>
    some
      { self.goTo thread .idle with
        manager :=
          { self.manager with
            threadInitMap := Function.update self.manager.threadInitMap thread false } }
  | .coCreateInstance => some (self.returns thread hr)

inductive Op where
  | enter (thread : Nat) (call : Call)
  | advance (thread : Nat) (hr : HRESULT)

/-- One action of one thread: it enters a call, or goes on in the one it is in. -/
def step (self : Process) : Op → Option Process
  | .enter thread call =>
    match self.next thread, call with
    | .idle, .initializeCall => some (self.initializeCom thread)
    | .idle, .uninitializeCall => some (self.uninitializeCom thread)
    | .idle, .createInstanceCall => some (self.createInstance thread)
    | _, _ => none
  | .advance thread hr => self.advance thread hr

/-- `CoCreateInstance` and `CoUninitialize` are called on a thread that has one
more successful `CoInitializeEx` than `CoUninitialize`. -/
def CallsInitialized (self : Process) : Op → Prop
  | .enter _ _ => True
  | .advance thread _ =>
    self.next thread = .coCreateInstance ∨ self.next thread = .coUninitializeCall →
      self.inits thread = self.uninits thread + 1

/-- A thread that gets past the test of `createInstance` has an entry itself. -/
def CreatesOnOwnThread (self : Process) : Op → Prop
  | .enter _ _ => True
  | .advance thread _ => self.next thread = .coCreateInstance → self.manager.threadInitMap thread = true

/-- The entry of a thread says whether COM is initialized on it, except inside
the calls that change both; and once it was set so is the flag. -/
def Agrees (flag entry : Bool) (inits uninits : Nat) : Next → Prop
  | .idle | .coCreateInstance => inits = uninits + entry.toNat ∧ (entry = true → flag = true)
  | .coInitializeEx => entry = false ∧ inits = uninits
  | .recordThread _ => entry = false ∧ inits = uninits + 1
  | .setInitialized _ => entry = true ∧ inits = uninits + 1
  | .coUninitializeCall => entry = true ∧ inits = uninits + 1 ∧ flag = true
  | .clearThread => entry = true ∧ inits = uninits ∧ flag = true

def Tracked (self : Process) : Prop :=
  ∀ thread, Agrees self.manager.initialized (self.manager.threadInitMap thread) (self.inits thread)
    (self.uninits thread) (self.next thread)

theorem started_tracked : started.Tracked :=
  fun _ => ⟨rfl, fun h => h⟩

theorem Agrees.of_flag {flag flag' entry : Bool} {inits uninits : Nat} {next : Next}
    (h : Agrees flag entry inits uninits next) (hflag : flag = true → flag' = true) :
    Agrees flag' entry inits uninits next := by
  cases next with
  | idle => exact ⟨h.1, fun hentry => hflag (h.2 hentry)⟩
  | coCreateInstance => exact ⟨h.1, fun hentry => hflag (h.2 hentry)⟩
  | coInitializeEx => exact h
  | recordThread => exact h
  | setInitialized => exact h
  | coUninitializeCall => exact ⟨h.1, h.2.1, hflag h.2.2⟩
  | clearThread => exact ⟨h.1, h.2.1, hflag h.2.2⟩

variable {self after : Process}

/-- An action of one thread leaves what is recorded of the others. -/
theorem Tracked.of_thread (h : self.Tracked) (thread : Nat)
    (hothers : ∀ other, other ≠ thread →
      after.manager.threadInitMap other = self.manager.threadInitMap other ∧
        after.inits other = self.inits other ∧ after.uninits other = self.uninits other ∧
        after.next other = self.next other)
    (hflag : self.manager.initialized = true → after.manager.initialized = true)
    (hself : Agrees after.manager.initialized (after.manager.threadInitMap thread) (after.inits thread)
      (after.uninits thread) (after.next thread)) : after.Tracked := by
  intro other
  by_cases hother : other = thread
  · exact hother ▸ hself
  · obtain ⟨hentry, hinits, huninits, hnext⟩ := hothers other hother
    rw [hentry, hinits, huninits, hnext]
    exact (h other).of_flag hflag

@[simp] theorem goTo_next (self : Process) (thread : Nat) (next : Next) :
    (self.goTo thread next).next = Function.update self.next thread next := rfl

/-- A thread that only goes on to another action. -/
theorem Tracked.goTo (h : self.Tracked) (thread : Nat) {next : Next}
    (hself : Agrees self.manager.initialized (self.manager.threadInitMap thread) (self.inits thread)
      (self.uninits thread) next) : (self.goTo thread next).Tracked := by
  refine h.of_thread thread (fun other hother => ⟨rfl, rfl, rfl, ?_⟩) (fun hflag => hflag) ?_
  · rw [goTo_next, Function.update_of_ne hother]
  · rw [goTo_next, Function.update_self]
    exact hself

theorem Tracked.enter (h : self.Tracked) {thread : Nat} {call : Call}
    (hstep : self.step (.enter thread call) = some after) : after.Tracked := by
  have hthread := h thread
  simp only [Process.step] at hstep
  cases hnext : self.next thread with
  | idle =>
    simp only [hnext] at hstep hthread
    obtain ⟨hcount, hentry⟩ := hthread
    cases call with
    | initializeCall =>
      obtain rfl := Option.some.inj hstep
      simp only [initializeCom]
      split
      · exact h.goTo thread ⟨hcount, hentry⟩
      · next hflag =>
        -- the flag was set by then, if the thread had an entry
        have hnone : self.manager.threadInitMap thread = false := by
          cases hmap : self.manager.threadInitMap thread with
          | false => rfl
          | true => exact absurd (hentry hmap) hflag
        refine h.goTo thread ⟨hnone, ?_⟩
        simpa [hnone] using hcount
    | uninitializeCall =>
      obtain rfl := Option.some.inj hstep
      simp only [uninitializeCom]
      split
      · next hmap =>
        refine h.goTo thread ⟨hmap, ?_, hentry hmap⟩
        simpa [hmap] using hcount
      · exact h
    | createInstanceCall =>
      obtain rfl := Option.some.inj hstep
      simp only [createInstance]
      split
      · exact h.goTo thread ⟨hcount, hentry⟩
      · exact h.goTo thread ⟨hcount, hentry⟩
  | coInitializeEx => simp [hnext] at hstep
  | recordThread => simp [hnext] at hstep
  | setInitialized => simp [hnext] at hstep
  | coUninitializeCall => simp [hnext] at hstep
  | clearThread => simp [hnext] at hstep
  | coCreateInstance => simp [hnext] at hstep

theorem Tracked.advance (h : self.Tracked) {thread : Nat} {hr : HRESULT}
    (hstep : self.advance thread hr = some after) : after.Tracked := by
  have hthread := h thread
  simp only [Process.advance] at hstep
  cases hnext : self.next thread with
  | idle => simp [hnext] at hstep
  | coInitializeEx =>
    simp only [hnext] at hstep hthread
    obtain ⟨hentry, hcount⟩ := hthread
    split at hstep
    · obtain rfl := Option.some.inj hstep
      refine h.of_thread thread (fun other hother => ?_) (fun hflag => hflag) ?_
      · simp [Process.goTo, hother]
      · simp [Process.goTo, Agrees, hentry, hcount]
    · obtain rfl := Option.some.inj hstep
      refine h.goTo thread ⟨?_, ?_⟩
      · simp [hentry, hcount]
      · simp [hentry]
  | recordThread result =>
    simp only [hnext, Option.some.injEq] at hstep hthread
    obtain ⟨_, hcount⟩ := hthread
    subst hstep
    refine h.of_thread thread (fun other hother => ?_) (fun hflag => hflag) ?_
    · simp [Process.goTo, hother]
    · simp [Process.goTo, Agrees, hcount]
  | setInitialized result =>
    simp only [hnext, Option.some.injEq] at hstep hthread
    obtain ⟨hentry, hcount⟩ := hthread
    subst hstep
    refine h.of_thread thread (fun other hother => ?_) (fun _ => rfl) ?_
    · simp [hother, Process.returns, Process.goTo]
    · simp [Process.returns, Process.goTo, Agrees, hentry, hcount]
  | coUninitializeCall =>
    simp only [hnext, Option.some.injEq] at hstep hthread
    obtain ⟨hentry, hcount, hset⟩ := hthread
    subst hstep
    refine h.of_thread thread (fun other hother => ?_) (fun hflag => hflag) ?_
    · simp [Process.goTo, hother]
    · simp [Process.goTo, Agrees, hentry, hcount, hset]
  | clearThread =>
    simp only [hnext, Option.some.injEq] at hstep hthread
    obtain ⟨_, hcount, _⟩ := hthread
    subst hstep
    refine h.of_thread thread (fun other hother => ?_) (fun hflag => hflag) ?_
    · simp [Process.goTo, hother]
    · simp [Process.goTo, Agrees, hcount]
  | coCreateInstance =>
    simp only [hnext, Option.some.injEq] at hstep hthread
    subst hstep
    exact h.goTo thread hthread

theorem Tracked.step (h : self.Tracked) {op : Op} (hstep : self.step op = some after) : after.Tracked := by
  cases op with
  | enter thread call => exact h.enter hstep
  | advance thread hr => exact h.advance hstep

/-- Both calls are made where COM is initialized exactly when `CoCreateInstance`
is made on a thread with an entry. -/
theorem Tracked.callsInitialized_iff (h : self.Tracked) (op : Op) :
    self.CallsInitialized op ↔ self.CreatesOnOwnThread op := by
  cases op with
  | enter thread call => exact Iff.rfl
  | advance thread hr =>
    have hthread := h thread
    simp only [CallsInitialized, CreatesOnOwnThread]
    cases hnext : self.next thread with
    | coCreateInstance =>
      simp only [hnext, Agrees] at hthread
      rw [hthread.1]
      cases self.manager.threadInitMap thread <;> simp
    | coUninitializeCall =>
      simp only [hnext, Agrees] at hthread
      simp [hthread.2.1]
    | idle => simp
    | coInitializeEx => simp
    | recordThread => simp
    | setInitialized => simp
    | clearThread => simp

/-- In every interleaving, `CoCreateInstance` and `CoUninitialize` are called
only where COM is initialized exactly when no thread without an entry of its own
gets past the test of the flag in `createInstance`. -/
theorem com_calls_initialized_iff (ops : List Op) :
    Guarded step CallsInitialized started ops ↔ Guarded step CreatesOnOwnThread started ops :=
  along_iff_along Tracked (fun _ op _ h _ => h.callsInitialized_iff op)
    (fun self op after h (hstep : self.step op = some after) _ => h.step hstep) ops started_tracked

/-- Thread 1 initializes COM; thread 2 creates an instance. -/
theorem created_on_other_thread :
    ¬ Guarded step CallsInitialized started
      [.enter 1 .initializeCall, .advance 1 S_OK, .advance 1 S_OK, .advance 1 S_OK,
        .enter 2 .createInstanceCall, .advance 2 S_OK] := by
  intro h
  obtain ⟨_, h⟩ := h _ rfl
  obtain ⟨_, h⟩ := h _ rfl
  obtain ⟨_, h⟩ := h _ rfl
  obtain ⟨_, h⟩ := h _ rfl
  obtain ⟨_, h⟩ := h _ rfl
  obtain ⟨hcreates, _⟩ := h _ rfl
  exact absurd (hcreates (.inl rfl)) (by decide)

end Process

end Win32Compat
