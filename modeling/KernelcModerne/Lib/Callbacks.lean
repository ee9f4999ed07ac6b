import Mathlib.Logic.Function.Basic
import KernelcModerne.Lib.Transition

open Transition

/-! Threads that use an object whose operations are atomic, and that register
callbacks under keys and have them run. A callback runs on the thread that asks
for it, under the one lock that also protects the table of callbacks and is not
recursive. -/

namespace Callbacks

/-- The operations of the object; `Outside` is what the code outside of it
decides meanwhile. -/
structure Interface where
  State : Type
  Op : Type
  Answer : Op → Type
  Outside : Type
  perform : State → Outside → (op : Op) → Option (State × Answer op)

variable (I : Interface) (Key : Type)

/-- What a thread or a callback does, which may depend on every answer. A
callback is given the key that it runs for. -/
inductive Program where
  | done
  | call (op : I.Op) (next : I.Answer op → Program)
  | register (key : Key) (callback : Key → Program) (next : Program)
  | signal (key : Key) (next : Program)

/-- What the thread does next and, while it runs a callback, what it does once
that returns. -/
structure Thread where
  program : Program I Key
  resume : Option (Program I Key)

/-- `owner` is the thread that holds the lock. -/
structure System where
  state : I.State
  callbacks : Key → Option (Key → Program I Key)
  owner : Option Nat
  threads : List (Thread I Key)

variable {I Key}

namespace Program

/-- The next call is one that takes the lock. -/
def Locks : Program I Key → Prop
  | register _ _ _ => True
  | signal _ _ => True
  | _ => False

/-- Whatever is answered, no call takes the lock. -/
def Quiet : Program I Key → Prop
  | done => True
  | call _ next => ∀ answer, (next answer).Quiet
  | register _ _ _ => False
  | signal _ _ => False

/-- Whatever is answered, only quiet callbacks are registered. -/
def RegistersQuiet : Program I Key → Prop
  | done => True
  | call _ next => ∀ answer, (next answer).RegistersQuiet
  | register _ callback next => (∀ key, (callback key).Quiet) ∧ next.RegistersQuiet
  | signal _ next => next.RegistersQuiet

theorem not_locks_of_quiet {program : Program I Key} (h : program.Quiet) : ¬ program.Locks := by
  cases program with
  | done => exact id
  | call op next => exact id
  | register key callback next => exact fun _ => h
  | signal key next => exact fun _ => h

end Program

def Thread.Finished (thread : Thread I Key) : Prop := thread.program = .done ∧ thread.resume = none

/-- A thread that runs a quiet callback, or none, and registers quiet ones. -/
def Thread.Discreet (thread : Thread I Key) : Prop :=
  match thread.resume with
  | none => thread.program.RegistersQuiet
  | some next => thread.program.Quiet ∧ next.RegistersQuiet

namespace System

/-- No callback is registered and no thread has begun. -/
def start (state : I.State) (programs : List (Program I Key)) : System I Key where
  state
  callbacks _ := none
  owner := none
  threads := programs.map fun program => ⟨program, none⟩

/-- One step of a thread, if it can take one: a thread that needs the lock waits
while it is held. -/
def step [DecidableEq Key] (system : System I Key) (choice : Nat × I.Outside) : Option (System I Key) :=
  let (i, outside) := choice
  match system.threads[i]? with
  | none => none
  | some ⟨.done, none⟩ => none
  | some ⟨.done, some next⟩ =>
    some { system with owner := none, threads := system.threads.set i ⟨next, none⟩ }
  | some ⟨.call op next, resume⟩ =>
    (I.perform system.state outside op).map fun (state, answer) =>
      { system with state, threads := system.threads.set i ⟨next answer, resume⟩ }
  | some ⟨.register key callback next, resume⟩ =>
    if system.owner.isSome then none
    else
      some
        { system with
          callbacks := Function.update system.callbacks key (some callback)
          threads := system.threads.set i ⟨next, resume⟩ }
  | some ⟨.signal key next, resume⟩ =>
    if system.owner.isSome then none
    else
      match system.callbacks key with
      | none => some { system with threads := system.threads.set i ⟨next, resume⟩ }
      | some callback =>
        some { system with owner := some i, threads := system.threads.set i ⟨callback key, some next⟩ }

/-- The thread that runs a callback holds the lock. -/
def Locked (system : System I Key) : Prop :=
  (∀ i, system.owner = some i → i < system.threads.length) ∧
    ∀ i thread, system.threads[i]? = some thread → (thread.resume.isSome ↔ system.owner = some i)

/-- The callback that runs calls for the lock that it runs under. -/
def SelfCalls (system : System I Key) : Prop :=
  ∃ i thread, system.owner = some i ∧ system.threads[i]? = some thread ∧ thread.program.Locks

/-- The object refuses what the thread calls next, whatever the outside does. -/
def Refuses (system : System I Key) (thread : Thread I Key) : Prop :=
  ∃ op next, thread.program = .call op next ∧ ∀ outside, I.perform system.state outside op = none

/-- A thread that waits for the lock. -/
def Waits (system : System I Key) (thread : Thread I Key) : Prop :=
  thread.program.Locks ∧ system.owner ≠ none

/-- No thread can take a step. -/
def Stuck [DecidableEq Key] (system : System I Key) : Prop := ∀ choice, system.step choice = none

/-- After a callback has called for its own lock: the lock is never given back, no
callback is registered or run, and whoever needs the lock waits on. -/
structure Blocked (system later : System I Key) : Prop where
  selfCalls : later.SelfCalls
  owner : later.owner = system.owner
  callbacks : later.callbacks = system.callbacks
  waiting : ∀ (j : Nat) (thread : Thread I Key), system.threads[j]? = some thread → thread.program.Locks →
    later.threads[j]? = some thread

/-- All callbacks are quiet, those registered, those that run and those that may
still be registered. -/
structure Discreet (system : System I Key) : Prop where
  callbacks : ∀ key callback, system.callbacks key = some callback → ∀ key', (callback key').Quiet
  threads : ∀ thread ∈ system.threads, thread.Discreet

/-- What a step does: the callback of the thread returns, the thread makes a call
on the object, it registers a callback, or it asks for one, which is not there or
begins to run. -/
inductive Stepped [DecidableEq Key] (system : System I Key) (i : Nat) (outside : I.Outside) :
    System I Key → Prop where
  | returned (next : Program I Key) (hthread : system.threads[i]? = some ⟨.done, some next⟩) :
    Stepped system i outside { system with owner := none, threads := system.threads.set i ⟨next, none⟩ }
  | called (op : I.Op) (next : I.Answer op → Program I Key) (resume : Option (Program I Key))
      (state : I.State) (answer : I.Answer op) (hthread : system.threads[i]? = some ⟨.call op next, resume⟩)
      (hperform : I.perform system.state outside op = some (state, answer)) :
    Stepped system i outside
      { system with state, threads := system.threads.set i ⟨next answer, resume⟩ }
  | registered (key : Key) (callback : Key → Program I Key) (next : Program I Key)
      (resume : Option (Program I Key)) (hfree : system.owner = none)
      (hthread : system.threads[i]? = some ⟨.register key callback next, resume⟩) :
    Stepped system i outside
      { system with
        callbacks := Function.update system.callbacks key (some callback)
        threads := system.threads.set i ⟨next, resume⟩ }
  | missed (key : Key) (next : Program I Key) (resume : Option (Program I Key)) (hfree : system.owner = none)
      (hthread : system.threads[i]? = some ⟨.signal key next, resume⟩) (hnone : system.callbacks key = none) :
    Stepped system i outside { system with threads := system.threads.set i ⟨next, resume⟩ }
  | entered (key : Key) (next : Program I Key) (resume : Option (Program I Key))
      (callback : Key → Program I Key) (hfree : system.owner = none)
      (hthread : system.threads[i]? = some ⟨.signal key next, resume⟩)
      (hcallback : system.callbacks key = some callback) :
    Stepped system i outside
      { system with owner := some i, threads := system.threads.set i ⟨callback key, some next⟩ }

variable {system after : System I Key} {i : Nat} {outside : I.Outside}

theorem locked_start (state : I.State) (programs : List (Program I Key)) : (start state programs).Locked := by
  refine ⟨nofun, fun i thread hthread => ?_⟩
  rw [start, List.getElem?_map, Option.map_eq_some_iff] at hthread
  obtain ⟨program, _, rfl⟩ := hthread
  exact iff_of_false Bool.false_ne_true nofun

/-- A thread that goes on without taking or giving back the lock. -/
theorem Locked.goOn (h : system.Locked) {program after : Program I Key} {resume : Option (Program I Key)}
    (hthread : system.threads[i]? = some ⟨program, resume⟩) (state : I.State)
    (callbacks : Key → Option (Key → Program I Key)) :
    Locked
      { system with state, callbacks, threads := system.threads.set i ⟨after, resume⟩ } := by
  refine ⟨fun j hj => ?_, fun j thread hj => ?_⟩
  · rw [List.length_set]
    exact h.1 j hj
  · rw [List.getElem?_set] at hj
    split at hj
    · next heq =>
      subst heq
      obtain ⟨_, hthread'⟩ := Option.ite_none_right_eq_some.mp hj
      obtain rfl := Option.some.inj hthread'
      exact h.2 i ⟨program, resume⟩ hthread
    · exact h.2 j thread hj

/-- Where the lock is free no thread runs a callback. -/
theorem Locked.resume_eq_none {thread : Thread I Key} (h : system.Locked)
    (hfree : system.owner = none) (hthread : system.threads[i]? = some thread) : thread.resume = none := by
  cases hresume : thread.resume with
  | none => rfl
  | some next =>
    have howner := (h.2 i thread hthread).mp (by simp [hresume])
    rw [hfree] at howner
    cases howner

theorem Blocked.trans {middle : System I Key} (h : system.Blocked middle) (h' : middle.Blocked after) :
    system.Blocked after where
  selfCalls := h'.selfCalls
  owner := h'.owner.trans h.owner
  callbacks := h'.callbacks.trans h.callbacks
  waiting j thread hthread hlocks := h'.waiting j thread (h.waiting j thread hthread hlocks) hlocks

theorem discreet_start (state : I.State) {programs : List (Program I Key)}
    (hprograms : ∀ program ∈ programs, program.RegistersQuiet) : (start state programs).Discreet := by
  refine ⟨nofun, fun thread hmem => ?_⟩
  obtain ⟨program, hprogram, rfl⟩ := List.mem_map.mp hmem
  exact hprograms program hprogram

theorem Discreet.set (h : system.Discreet) {thread : Thread I Key} (hthread : thread.Discreet) (i : Nat) :
    ∀ other ∈ system.threads.set i thread, other.Discreet := by
  intro other hmem
  cases List.mem_or_eq_of_mem_set hmem with
  | inl hold => exact h.threads other hold
  | inr heq => exact heq ▸ hthread

/-- A quiet callback does not call for its own lock. -/
theorem Discreet.not_selfCalls (h : system.Discreet) (hlocked : system.Locked) : ¬ system.SelfCalls := by
  rintro ⟨i, thread, howner, hthread, hlocks⟩
  have hthis := h.threads thread (List.mem_of_getElem? hthread)
  have hresume := (hlocked.2 i thread hthread).mpr howner
  obtain ⟨program, resume⟩ := thread
  cases resume with
  | none => simp at hresume
  | some next => exact Program.not_locks_of_quiet hthis.1 hlocks

variable [DecidableEq Key]

theorem stepped_of_step (h : system.step (i, outside) = some after) : Stepped system i outside after := by
  simp only [step] at h
  cases hthread : system.threads[i]? with
  | none => simp [hthread] at h
  | some thread =>
    obtain ⟨program, resume⟩ := thread
    rw [hthread] at h
    cases program with
    | done =>
      cases resume with
      | none => simp at h
      | some next =>
        obtain rfl := Option.some.inj h
        exact .returned next hthread
    | call op next =>
      obtain ⟨⟨state, answer⟩, hperform, rfl⟩ := Option.map_eq_some_iff.mp h
      exact .called op next resume state answer hthread hperform
    | register key callback next =>
      obtain ⟨hfree, hafter⟩ := Option.ite_none_left_eq_some.mp h
      obtain rfl := Option.some.inj hafter
      exact .registered key callback next resume (Option.not_isSome_iff_eq_none.mp hfree) hthread
    | signal key next =>
      obtain ⟨hfree, hafter⟩ := Option.ite_none_left_eq_some.mp h
      have howner := Option.not_isSome_iff_eq_none.mp hfree
      cases hcallback : system.callbacks key with
      | none =>
        rw [hcallback] at hafter
        obtain rfl := Option.some.inj hafter
        exact .missed key next resume howner hthread hcallback
      | some callback =>
        rw [hcallback] at hafter
        obtain rfl := Option.some.inj hafter
        exact .entered key next resume callback howner hthread hcallback

/-- A property of the object that its operations keep is kept by all steps. -/
theorem state_step {P : I.State → Prop}
    (hP : ∀ state outside op next, P state → I.perform state outside op = some next → P next.1)
    (hsystem : P system.state) {choice : Nat × I.Outside} (hstep : system.step choice = some after) :
    P after.state := by
  cases stepped_of_step hstep with
  | returned next hthread => exact hsystem
  | called op next resume state answer hthread hperform =>
    exact hP system.state choice.2 op (state, answer) hsystem hperform
  | registered key callback next resume hfree hthread => exact hsystem
  | missed key next resume hfree hthread hnone => exact hsystem
  | entered key next resume callback hfree hthread hcallback => exact hsystem

/-- While a callback runs none is registered, so the one that runs stays. -/
theorem callbacks_step {choice : Nat × I.Outside} (hheld : system.owner ≠ none)
    (hstep : system.step choice = some after) : after.callbacks = system.callbacks := by
  cases stepped_of_step hstep with
  | registered key callback next resume hfree hthread => exact absurd hfree hheld
  | _ => rfl

theorem Locked.step (h : system.Locked) {choice : Nat × I.Outside}
    (hstep : system.step choice = some after) : after.Locked := by
  cases stepped_of_step hstep with
  | called op next resume state answer hthread hperform => exact h.goOn hthread state system.callbacks
  | registered key callback next resume hfree hthread => exact h.goOn hthread system.state _
  | missed key next resume hfree hthread hnone => exact h.goOn hthread system.state system.callbacks
  | returned next hthread =>
    have howner : system.owner = some choice.1 := (h.2 choice.1 _ hthread).mp rfl
    refine ⟨nofun, fun j thread hj => ?_⟩
    rw [List.getElem?_set] at hj
    split at hj
    · obtain ⟨_, hthread'⟩ := Option.ite_none_right_eq_some.mp hj
      obtain rfl := Option.some.inj hthread'
      exact iff_of_false Bool.false_ne_true nofun
    · next hne =>
      refine iff_of_false (fun hresume => hne ?_) nofun
      exact Option.some.inj (howner.symm.trans ((h.2 j thread hj).mp hresume))
  | entered key next resume callback hfree hthread hcallback =>
    have hlength := (List.getElem?_eq_some_iff.mp hthread).1
    refine ⟨fun j hj => ?_, fun j thread hj => ?_⟩
    · obtain rfl := Option.some.inj hj
      rw [List.length_set]
      exact hlength
    · rw [List.getElem?_set] at hj
      split at hj
      · next heq =>
        obtain rfl := Option.some.inj hj
        exact iff_of_true rfl (congrArg some heq)
      · next hne =>
        refine iff_of_false ?_ fun heq => hne (Option.some.inj heq)
        simp [h.resume_eq_none hfree hj]

theorem SelfCalls.step (h : system.SelfCalls) (hlocked : system.Locked) {choice : Nat × I.Outside}
    (hstep : system.step choice = some after) : system.Blocked after := by
  obtain ⟨i, thread, howner, hthread, hlocks⟩ := h
  have hheld : system.owner ≠ none := by simp [howner]
  cases stepped_of_step hstep with
  | returned next hreturns =>
    have heq : system.owner = some choice.1 := (hlocked.2 choice.1 _ hreturns).mp rfl
    obtain rfl := Option.some.inj (howner.symm.trans heq)
    rw [hthread, Option.some.injEq] at hreturns
    exact absurd hlocks (hreturns ▸ id)
  | called op next resume state answer hcalls hperform =>
    have hstays (j : Nat) (other : Thread I Key) (hother : system.threads[j]? = some other)
        (hwaits : other.program.Locks) :
        (system.threads.set choice.1 ⟨next answer, resume⟩)[j]? = some other := by
      have hne : choice.1 ≠ j := by
        rintro heq
        rw [heq, hother, Option.some.injEq] at hcalls
        exact absurd hwaits (hcalls ▸ id)
      rw [List.getElem?_set_ne hne, hother]
    exact ⟨⟨i, thread, howner, hstays i thread hthread hlocks, hlocks⟩, rfl, rfl, hstays⟩
  | registered key callback next resume hfree hregisters => exact absurd hfree hheld
  | missed key next resume hfree hsignals hnone => exact absurd hfree hheld
  | entered key next resume callback hfree hsignals hcallback => exact absurd hfree hheld

theorem SelfCalls.always (h : system.SelfCalls) (hlocked : system.Locked) (choices : List (Nat × I.Outside)) :
    Always System.step system.Blocked system choices := by
  have hboth : Always System.step (fun later => later.Locked ∧ system.Blocked later) system choices := by
    refine always_of_step ?_ choices ⟨hlocked, h, rfl, rfl, fun _ _ hthread _ => hthread⟩
    rintro middle choice later ⟨hmiddle, hblocked⟩ hstep
    exact ⟨hmiddle.step hstep, hblocked.trans (hblocked.selfCalls.step hmiddle hstep)⟩
  exact hboth.imp fun _ hlater => hlater.2

/-- A thread takes no step exactly when it has finished, the object refuses its
call, or it waits for the lock. -/
theorem step_eq_none_iff [Nonempty I.Outside] {thread : Thread I Key}
    (hthread : system.threads[i]? = some thread) :
    (∀ outside, system.step (i, outside) = none) ↔
      thread.Finished ∨ system.Refuses thread ∨ system.Waits thread := by
  obtain ⟨program, resume⟩ := thread
  simp only [step, hthread, Thread.Finished, Refuses, Waits]
  cases program with
  | done =>
    cases resume with
    | none => simp
    | some next => simp [Program.Locks]
  | call op next =>
    simp only [Option.map_eq_none_iff, Program.Locks, reduceCtorEq, false_and, or_false, false_or]
    constructor
    · exact fun h => ⟨op, next, rfl, h⟩
    · rintro ⟨op', next', heq, h⟩
      cases heq
      exact h
  | register key callback next =>
    cases system.owner <;> simp [Program.Locks]
  | signal key next =>
    cases system.owner with
    | none => cases hcallback : system.callbacks key <;> simp [Program.Locks, hcallback]
    | some j => simp [Program.Locks]

/-- Where the object refuses no call, no thread can take a step exactly when all
have finished, or a callback calls for its own lock and the threads that have not
finished wait for it. -/
theorem stuck_iff [Nonempty I.Outside] (hlocked : system.Locked)
    (hrefuses : ∀ thread ∈ system.threads, ¬ system.Refuses thread) :
    system.Stuck ↔ (∀ thread ∈ system.threads, thread.Finished) ∨
      (system.SelfCalls ∧ ∀ thread ∈ system.threads, thread.Finished ∨ thread.program.Locks) := by
  have hstuck : system.Stuck ↔ ∀ thread ∈ system.threads, thread.Finished ∨ system.Waits thread := by
    constructor
    · intro h thread hmem
      obtain ⟨i, hthread⟩ := List.mem_iff_getElem?.mp hmem
      cases (step_eq_none_iff hthread).mp fun outside => h (i, outside) with
      | inl hfinished => exact .inl hfinished
      | inr hrest => exact .inr (hrest.resolve_left (hrefuses thread hmem))
    · rintro h ⟨i, outside⟩
      cases hthread : system.threads[i]? with
      | none => simp [step, hthread]
      | some thread =>
        have hmem := List.mem_of_getElem? hthread
        exact (step_eq_none_iff hthread).mpr ((h thread hmem).imp_right .inr) outside
  rw [hstuck]
  constructor
  · intro h
    cases howner : system.owner with
    | none => exact .inl fun thread hmem => (h thread hmem).resolve_right fun hwaits => hwaits.2 howner
    | some i =>
      have hthread := List.getElem?_eq_getElem (hlocked.1 i howner)
      have hresume := (hlocked.2 i _ hthread).mpr howner
      have hwaits := (h _ (List.getElem_mem (hlocked.1 i howner))).resolve_left fun hfinished => by
        simp [hfinished.2] at hresume
      exact .inr ⟨⟨i, _, howner, hthread, hwaits.1⟩, fun thread hmem => (h thread hmem).imp_right And.left⟩
  · rintro (hfinished | ⟨⟨i, _, howner, _, _⟩, hlocks⟩) thread hmem
    · exact .inl (hfinished thread hmem)
    · exact (hlocks thread hmem).imp_right fun h => ⟨h, by simp [howner]⟩

theorem Discreet.step (h : system.Discreet) (hlocked : system.Locked) {choice : Nat × I.Outside}
    (hstep : system.step choice = some after) : after.Discreet := by
  cases stepped_of_step hstep with
  | returned next hthread =>
    have hthis := h.threads _ (List.mem_of_getElem? hthread)
    have hrest : Thread.Discreet ⟨next, none⟩ := hthis.2
    exact ⟨h.callbacks, h.set hrest _⟩
  | called op next resume state answer hthread hperform =>
    have hthis := h.threads _ (List.mem_of_getElem? hthread)
    refine ⟨h.callbacks, h.set ?_ _⟩
    cases resume with
    | none => exact hthis answer
    | some outer => exact ⟨hthis.1 answer, hthis.2⟩
  | registered key callback next resume hfree hthread =>
    obtain rfl : resume = none := hlocked.resume_eq_none hfree hthread
    have hthis := h.threads _ (List.mem_of_getElem? hthread)
    have hrest : Thread.Discreet ⟨next, none⟩ := hthis.2
    refine ⟨fun key' callback' hcallback => ?_, h.set hrest _⟩
    replace hcallback : Function.update system.callbacks key (some callback) key' = some callback' := hcallback
    by_cases hkey : key' = key
    · rw [hkey, Function.update_self, Option.some.injEq] at hcallback
      exact hcallback ▸ hthis.1
    · rw [Function.update_of_ne hkey] at hcallback
      exact h.callbacks key' callback' hcallback
  | missed key next resume hfree hthread hnone =>
    obtain rfl : resume = none := hlocked.resume_eq_none hfree hthread
    have hthis := h.threads _ (List.mem_of_getElem? hthread)
    have hrest : Thread.Discreet ⟨next, none⟩ := hthis
    exact ⟨h.callbacks, h.set hrest _⟩
  | entered key next resume callback hfree hthread hcallback =>
    obtain rfl : resume = none := hlocked.resume_eq_none hfree hthread
    have hthis := h.threads _ (List.mem_of_getElem? hthread)
    have hrest : Thread.Discreet ⟨callback key, some next⟩ := ⟨h.callbacks key callback hcallback key, hthis⟩
    exact ⟨h.callbacks, h.set hrest _⟩

end System

end Callbacks
