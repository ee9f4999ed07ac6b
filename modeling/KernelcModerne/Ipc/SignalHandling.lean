import KernelcModerne.Ipc.MessageRuns
import KernelcModerne.Ipc.SharedMemoryRuns
import KernelcModerne.Lib.Callbacks

open Transition Callbacks

namespace Kernel.IPCManager

/-- A call on the messages or the shared memory. -/
inductive Call where
  | sendMessage (dest : ProcessId) (msg : Message)
  | receiveMessage (receiver : ProcessId)
  | createSharedMemory (name : String) (size : Nat)
  | removeSharedMemory (name : String)

def Call.Answer : Call → Type
  | sendMessage _ _ => Unit
  | receiveMessage _ => Message
  | createSharedMemory _ _ => Nat
  | removeSharedMemory _ => Bool

/-- What the clock and `mmap` answer. -/
structure Outside where
  now : Nat
  mmap : Option Nat

/-- The messages and the shared memory, with what their callers have seen. -/
structure Stores where
  messages : Client
  sharedMem : SharedMemoryManager.Client

def Stores.constructed : Stores where
  messages := .constructed
  sharedMem := .constructed

variable (queue : PriorityQueue Message)

def Stores.perform (stores : Stores) (outside : Outside) : (call : Call) → Option (Stores × call.Answer)
  | .sendMessage dest msg =>
    (stores.messages.step queue (.sendMessage dest msg outside.now)).map fun messages =>
      ({ stores with messages }, ())
  | .receiveMessage receiver =>
    (stores.messages.step queue (.receiveMessage receiver)).map fun messages =>
      ({ stores with messages }, (stores.messages.manager.receiveMessage queue receiver).1)
  | .createSharedMemory name size => do
    let sharedMem ← stores.sharedMem.step (.allocate name size outside.mmap)
    let (_, addr) ← stores.sharedMem.manager.allocate name size outside.mmap
    some ({ stores with sharedMem }, addr)
  | .removeSharedMemory name =>
    (stores.sharedMem.step (.deallocate name)).map fun sharedMem =>
      ({ stores with sharedMem }, (stores.sharedMem.manager.deallocate name).2.1)

/-- The calls that handlers may make without `handlerMutex`. -/
def interface : Interface where
  State := Stores
  Op := Call
  Answer := Call.Answer
  Outside := Outside
  perform := Stores.perform queue

/-- The manager, its signal handlers and the threads that use it. The callbacks
are the handlers of `registerSignalHandler`, and `handleSignal` runs them. -/
abbrev System := Callbacks.System (interface queue) Int

def start (programs : List (Program (interface queue) Int)) : System queue := .start .constructed programs

instance : Nonempty (interface queue).Outside := ⟨⟨0, none⟩⟩

/-- What all calls keep of the messages and the shared memory. -/
structure Stores.Kept (stores : Stores) : Prop where
  conserved : stores.messages.Conserved
  tracked : stores.sharedMem.Tracked

variable {queue}

theorem Stores.Kept.perform {stores : Stores} (h : stores.Kept) {outside : Outside} {call : Call}
    {next : Stores × call.Answer} (hperform : stores.perform queue outside call = some next) : next.1.Kept := by
  cases call with
  | sendMessage dest msg =>
    rw [Stores.perform, Option.map_eq_some_iff] at hperform
    obtain ⟨messages, hstep, rfl⟩ := hperform
    exact ⟨h.conserved.step hstep, h.tracked⟩
  | receiveMessage receiver =>
    rw [Stores.perform, Option.map_eq_some_iff] at hperform
    obtain ⟨messages, hstep, rfl⟩ := hperform
    exact ⟨h.conserved.step hstep, h.tracked⟩
  | createSharedMemory name size =>
    obtain ⟨sharedMem, hstep, hperform⟩ := Option.bind_eq_some_iff.mp hperform
    obtain ⟨answer, _, hperform⟩ := Option.bind_eq_some_iff.mp hperform
    obtain rfl := Option.some.inj hperform
    exact ⟨h.conserved, h.tracked.step hstep⟩
  | removeSharedMemory name =>
    rw [Stores.perform, Option.map_eq_some_iff] at hperform
    obtain ⟨sharedMem, hstep, rfl⟩ := hperform
    exact ⟨h.conserved, h.tracked.step hstep⟩

/-- Some segment has as many references as an `int` counts. -/
def Stores.Overflows (stores : Stores) : Prop :=
  ∃ name segment, stores.sharedMem.manager.segments.lookup name = some segment ∧
    segment.refCount = SharedMemoryManager.INT_MAX

/-- A call is only undefined where a count of references overflows. -/
theorem overflows_of_refuses {system : System queue} {thread : Thread (interface queue) Int}
    (h : system.Refuses thread) : system.state.Overflows := by
  obtain ⟨call, next, _, hrefuses⟩ := h
  have hnone := hrefuses ⟨0, none⟩
  cases call with
  | sendMessage dest msg => cases hnone
  | receiveMessage receiver => cases hnone
  | removeSharedMemory name => cases hnone
  | createSharedMemory name size =>
    by_contra hcounts
    obtain ⟨answer, hallocate⟩ : ∃ answer,
        system.state.sharedMem.manager.allocate name size none = some answer := by
      unfold SharedMemoryManager.allocate
      cases hlookup : system.state.sharedMem.manager.segments.lookup name with
      | none => exact ⟨_, rfl⟩
      | some segment => exact ⟨_, if_neg fun hmax => hcounts ⟨name, segment, hlookup, hmax⟩⟩
    have hfresh : system.state.sharedMem.Fresh none := by
      intro addr heq
      cases heq
    simp only [interface, Stores.perform, SharedMemoryManager.Client.step] at hnone
    rw [if_neg fun h => h.2 hfresh, hallocate] at hnone
    cases hnone

/-- The messages are conserved and the references to the shared memory counted,
whatever threads and handlers do; a handler runs alone, and is neither replaced
nor joined by another meanwhile. -/
structure Sound (system : System queue) : Prop where
  conserved : system.state.messages.Conserved
  counted : system.state.sharedMem.Counted
  locked : system.Locked

/-- What holds in every state of a run. -/
structure Reached (system : System queue) : Prop where
  kept : system.state.Kept
  locked : system.Locked

theorem reached_start (programs : List (Program (interface queue) Int)) : Reached (start queue programs) where
  kept := ⟨Client.constructed_conserved, SharedMemoryManager.Client.constructed_tracked⟩
  locked := System.locked_start _ programs

theorem Reached.step {system after : System queue} (h : Reached system) {choice : Nat × (interface queue).Outside}
    (hstep : system.step choice = some after) : Reached after where
  kept := System.state_step (fun _ _ _ _ hkept hperform => Stores.Kept.perform hkept hperform) h.kept hstep
  locked := h.locked.step hstep

theorem always_reached (programs : List (Program (interface queue) Int))
    (choices : List (Nat × (interface queue).Outside)) :
    Always System.step Reached (start queue programs) choices :=
  always_of_step (fun _ _ _ h hstep => h.step hstep) choices (reached_start programs)

variable (queue)

/-- Threads and the signal handlers they register, in any interleaving: no
message is lost or delivered twice, the shared memory counts its references, and
one handler runs at a time, which nothing replaces meanwhile. -/
theorem signals_keep_stores (programs : List (Program (interface queue) Int))
    (choices : List (Nat × (interface queue).Outside)) :
    Always System.step Sound (start queue programs) choices ∧
      Along System.step (fun system _ after => system.owner ≠ none → after.callbacks = system.callbacks)
        (start queue programs) choices := by
  constructor
  · exact (always_reached programs choices).imp fun _ h => ⟨h.kept.conserved, h.kept.tracked.counted, h.locked⟩
  · exact along_of_forall (fun _ _ _ hstep hheld => System.callbacks_step hheld hstep) choices _

/-- Up to an overflow of a count, no thread can go on exactly when all have
finished, or a handler calls `registerSignalHandler` or `handleSignal` itself and
all other threads have finished or wait to; from such a call on no handler is
registered or run any more. -/
theorem signals_stuck_iff (programs : List (Program (interface queue) Int))
    (choices : List (Nat × (interface queue).Outside)) :
    Always System.step
      (fun system : System queue =>
        (¬ system.state.Overflows →
          (system.Stuck ↔ (∀ thread ∈ system.threads, thread.Finished) ∨
            (system.SelfCalls ∧ ∀ thread ∈ system.threads, thread.Finished ∨ thread.program.Locks))) ∧
        (system.SelfCalls → ∀ more, Always System.step system.Blocked system more))
      (start queue programs) choices := by
  refine (always_reached programs choices).imp fun system h => ⟨fun hcounts => ?_, fun hself more => ?_⟩
  · exact System.stuck_iff h.locked fun thread _ hrefuses => hcounts (overflows_of_refuses hrefuses)
  · exact hself.always h.locked more

/-- Threads that register only handlers which leave the signals alone do not
deadlock: up to an overflow of a count, some thread can go on until all have
finished. -/
theorem quiet_handlers_go_on {programs : List (Program (interface queue) Int)}
    (hquiet : ∀ program ∈ programs, program.RegistersQuiet)
    (choices : List (Nat × (interface queue).Outside)) :
    Always System.step
      (fun system : System queue =>
        ¬ system.state.Overflows → system.Stuck → ∀ thread ∈ system.threads, thread.Finished)
      (start queue programs) choices := by
  have hdiscreet : Always System.step (fun system => Reached system ∧ system.Discreet)
      (start queue programs) choices :=
    always_of_step (fun _ _ _ h hstep => ⟨h.1.step hstep, h.2.step h.1.locked hstep⟩) choices
      ⟨reached_start programs, System.discreet_start _ hquiet⟩
  refine hdiscreet.imp fun system h hcounts hstuck => ?_
  have hcases := (System.stuck_iff h.1.locked fun thread _ hrefuses =>
    hcounts (overflows_of_refuses hrefuses)).mp hstuck
  exact hcases.resolve_right fun hself => h.2.not_selfCalls h.1.locked hself.1

/-- A handler that sends a message to process 1. -/
def announce (signal : Int) : Program (interface MessageQueue.highestFirst) Int :=
  .call (.sendMessage 1 ⟨signal, 1, "signal", 0, 0⟩) fun _ => .done

theorem quiet_handlers_go_on_announce :
    Always System.step
      (fun system : System MessageQueue.highestFirst =>
        ¬ system.state.Overflows → system.Stuck → ∀ thread ∈ system.threads, thread.Finished)
      (start MessageQueue.highestFirst [.register 2 announce .done, .signal 2 .done])
      [(0, ⟨0, none⟩), (1, ⟨0, none⟩), (1, ⟨0, none⟩), (1, ⟨0, none⟩)] := by
  apply quiet_handlers_go_on
  refine List.forall_mem_cons.mpr ⟨⟨fun _ _ => trivial, trivial⟩, ?_⟩
  exact List.forall_mem_singleton.mpr trivial

end Kernel.IPCManager
