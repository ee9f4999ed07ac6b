import Mathlib.Data.List.AList
import KernelcModerne.Lib.AListTotal
import KernelcModerne.Lib.Transition

set_option linter.dupNamespace false

open Transition

namespace Kernel.Process

abbrev ProcessID : Type := UInt32

structure Process where
  pid : ProcessID
  name : String
  priority : UInt32

inductive SchedulerCall where
  | addProcess (process : Process)
  | removeProcess (pid : ProcessID)

/-- The manager. The scheduler is outside: `scheduler` records the calls made on
it. -/
structure ProcessManager where
  processes : AList fun _ : ProcessID => Process
  nextPID : ProcessID
  scheduler : List SchedulerCall

namespace ProcessManager

def constructed : ProcessManager where
  processes := ∅
  nextPID := 0
  scheduler := []

def createProcess (self : ProcessManager) (name : String) (priority : UInt32) : ProcessManager × ProcessID :=
  let newProcess : Process := { pid := self.nextPID, name, priority }
  ({ processes := self.processes.insert newProcess.pid newProcess
     nextPID := self.nextPID + 1
     scheduler := self.scheduler ++ [.addProcess newProcess] }, newProcess.pid)

def terminateProcess (self : ProcessManager) (pid : ProcessID) : ProcessManager × Bool :=
  if pid ∈ self.processes then
    ({ self with
        processes := self.processes.erase pid
        scheduler := self.scheduler ++ [.removeProcess pid] }, true)
  else (self, false)

end ProcessManager

inductive Op where
  | createProcess (name : String) (priority : UInt32)
  | terminateProcess (pid : ProcessID)

/-- A manager, the number of processes created so far, and when each of those
that have not been terminated was: how many were created before it. -/
structure Client where
  manager : ProcessManager
  made : Nat
  births : List Nat

namespace Client

def constructed : Client where
  manager := .constructed
  made := 0
  births := []

def step (client : Client) : Op → Option Client
  | .createProcess name priority =>
    some
      { manager := (client.manager.createProcess name priority).1
        made := client.made + 1
        births := client.made :: client.births }
  | .terminateProcess pid =>
    let (manager, terminated) := client.manager.terminateProcess pid
    some
      { client with
        manager
        births :=
          if terminated then client.births.filter fun birth => UInt32.ofNat birth ≠ pid else client.births }

/-- `createProcess` returns no PID of a process, and leaves every process as it
is recorded. -/
def ReturnsFresh (client : Client) : Op → Prop
  | .createProcess name priority => ∀ pid process, client.manager.processes.lookup pid = some process →
    (client.manager.createProcess name priority).2 ≠ pid ∧
      (client.manager.createProcess name priority).1.processes.lookup pid = some process
  | .terminateProcess _ => True

/-- No process has seen 2 ^ 32 creations, its own included. -/
def Recent (client : Client) : Op → Prop
  | .createProcess _ _ => ∀ birth ∈ client.births, client.made < birth + 2 ^ 32
  | .terminateProcess _ => True

/-- The PIDs are the numbers of creation modulo 2 ^ 32, and the processes those
that were created and not terminated. -/
structure Tracked (client : Client) : Prop where
  next : client.manager.nextPID = UInt32.ofNat client.made
  recorded : ∀ pid, pid ∈ client.manager.processes ↔ ∃ birth ∈ client.births, UInt32.ofNat birth = pid
  past : ∀ birth ∈ client.births, birth < client.made
  near : ∀ birth ∈ client.births, client.made ≤ birth + 2 ^ 32

variable {client after : Client}

theorem constructed_tracked : constructed.Tracked where
  next := rfl
  recorded pid := by simp [constructed, ProcessManager.constructed]
  past := by simp [constructed]
  near := by simp [constructed]

/-- The next PID is one in use exactly when a process has seen 2 ^ 32 creations. -/
theorem Tracked.next_notMem_iff (h : client.Tracked) :
    client.manager.nextPID ∉ client.manager.processes ↔
      ∀ birth ∈ client.births, client.made < birth + 2 ^ 32 := by
  rw [h.next, h.recorded]
  constructor
  · intro hfresh birth hbirth
    refine lt_of_le_of_ne (h.near birth hbirth) fun hseen => hfresh ⟨birth, hbirth, ?_⟩
    apply UInt32.toNat_inj.mp
    rw [UInt32.toNat_ofNat', UInt32.toNat_ofNat', hseen, Nat.add_mod_right]
  · rintro hrecent ⟨birth, hbirth, heq⟩
    have hlt := hrecent birth hbirth
    have hpast := h.past birth hbirth
    have hmod := congrArg UInt32.toNat heq
    rw [UInt32.toNat_ofNat', UInt32.toNat_ofNat'] at hmod
    omega

theorem Tracked.returnsFresh_iff (h : client.Tracked) (op : Op) :
    client.ReturnsFresh op ↔ client.Recent op := by
  cases op with
  | terminateProcess pid => exact Iff.rfl
  | createProcess name priority =>
    rw [Recent, ← h.next_notMem_iff]
    constructor
    · intro hfresh hmem
      obtain ⟨process, hlookup⟩ := AList.exists_lookup_of_mem hmem
      exact (hfresh _ process hlookup).1 rfl
    · intro hnew pid process hlookup
      have hne : client.manager.nextPID ≠ pid := by
        rintro rfl
        exact hnew (AList.mem_of_lookup hlookup)
      exact ⟨hne, (AList.lookup_insert_ne (Ne.symm hne)).trans hlookup⟩

theorem Tracked.step_create (h : client.Tracked) {name : String} {priority : UInt32}
    (hstep : client.step (.createProcess name priority) = some after)
    (hrecent : client.Recent (.createProcess name priority)) : after.Tracked := by
  obtain rfl := Option.some.inj hstep
  constructor
  · simp only [ProcessManager.createProcess, h.next]
    exact (UInt32.ofNat_add client.made 1).symm
  · intro pid
    simp only [ProcessManager.createProcess, AList.mem_insert, h.recorded, List.mem_cons, h.next,
      exists_eq_or_imp]
    exact or_congr_left eq_comm
  · exact List.forall_mem_cons.mpr
      ⟨Nat.lt_succ_self _, fun birth hbirth => Nat.lt_succ_of_lt (h.past birth hbirth)⟩
  · refine List.forall_mem_cons.mpr ⟨?_, fun birth hbirth => hrecent birth hbirth⟩
    simp only
    omega

theorem step_terminate_of_mem {pid : ProcessID} (hmem : pid ∈ client.manager.processes) :
    client.step (.terminateProcess pid) = some
      { client with
        manager :=
          { client.manager with
            processes := client.manager.processes.erase pid
            scheduler := client.manager.scheduler ++ [.removeProcess pid] }
        births := client.births.filter fun birth => UInt32.ofNat birth ≠ pid } := by
  simp only [Client.step, ProcessManager.terminateProcess, if_pos hmem, if_true]

theorem step_terminate_of_notMem {pid : ProcessID} (hmem : pid ∉ client.manager.processes) :
    client.step (.terminateProcess pid) = some client := by
  simp only [Client.step, ProcessManager.terminateProcess, if_neg hmem, Bool.false_eq_true, if_false]

theorem Tracked.step_terminate (h : client.Tracked) {pid : ProcessID}
    (hstep : client.step (.terminateProcess pid) = some after) : after.Tracked := by
  by_cases hmem : pid ∈ client.manager.processes
  · rw [step_terminate_of_mem hmem] at hstep
    obtain rfl := Option.some.inj hstep
    have hsub : ∀ birth ∈ client.births.filter (fun birth => UInt32.ofNat birth ≠ pid), birth ∈ client.births :=
      fun birth hbirth => (List.mem_filter.mp hbirth).1
    refine ⟨h.next, fun other => ?_, fun birth hbirth => h.past birth (hsub birth hbirth),
      fun birth hbirth => h.near birth (hsub birth hbirth)⟩
    simp only [AList.mem_erase, h.recorded, List.mem_filter, decide_eq_true_eq]
    constructor
    · rintro ⟨hother, birth, hbirth, rfl⟩
      exact ⟨birth, ⟨hbirth, hother⟩, rfl⟩
    · rintro ⟨birth, ⟨hbirth, hother⟩, rfl⟩
      exact ⟨hother, birth, hbirth, rfl⟩
  · rw [step_terminate_of_notMem hmem] at hstep
    exact Option.some.inj hstep ▸ h

theorem Tracked.step (h : client.Tracked) {op : Op} (hstep : client.step op = some after)
    (hrecent : client.Recent op) : after.Tracked := by
  cases op with
  | createProcess name priority => exact h.step_create hstep hrecent
  | terminateProcess pid => exact h.step_terminate hstep

/-- In every run the PIDs that are returned are fresh exactly when each call of
`createProcess` finds no process that has seen 2 ^ 32 creations. -/
theorem pids_fresh_iff (ops : List Op) :
    Guarded step ReturnsFresh constructed ops ↔ Guarded step Recent constructed ops :=
  along_iff_along Tracked (fun _ op _ h _ => h.returnsFresh_iff op)
    (fun client op after h (hstep : client.step op = some after) hfresh =>
      h.step hstep ((h.returnsFresh_iff op).mp hfresh)) ops constructed_tracked

/-- `n` processes that are terminated at once, after the first process. -/
def shortLived (n : Nat) : List Op :=
  (List.range n).flatMap fun k => [.createProcess "short" 1, .terminateProcess (UInt32.ofNat (k + 1))]

theorem shortLived_succ (n : Nat) :
    shortLived (n + 1) =
      shortLived n ++ [.createProcess "short" 1, .terminateProcess (UInt32.ofNat (n + 1))] := by
  simp only [shortLived, List.range_succ, List.flatMap_append, List.flatMap_singleton]

theorem run_shortLived {n : Nat} (hn : n < 2 ^ 32) :
    ∃ client, run step constructed (.createProcess "long" 1 :: shortLived n) = some client ∧
      client.Tracked ∧ client.births = [0] ∧ client.made = n + 1 := by
  induction n with
  | zero =>
    refine ⟨_, rfl, constructed_tracked.step_create rfl ?_, rfl, rfl⟩
    exact fun birth hbirth => absurd hbirth List.not_mem_nil
  | succ n ih =>
    obtain ⟨client, hrun, htracked, hbirths, hmade⟩ := ih (by omega)
    have hrecent : client.Recent (.createProcess "short" 1) := by
      intro birth hbirth
      rw [hbirths, List.mem_singleton] at hbirth
      omega
    have hcreated := htracked.step_create rfl hrecent
    have hlive : UInt32.ofNat (n + 1) ∈ (client.manager.createProcess "short" 1).1.processes := by
      rw [← hmade, ← htracked.next]
      exact (AList.mem_insert _).mpr (.inl rfl)
    have hend := @step_terminate_of_mem ⟨_, client.made + 1, client.made :: client.births⟩ _ hlive
    have hother : UInt32.ofNat 0 ≠ UInt32.ofNat (n + 1) := by
      intro heq
      have hmod := congrArg UInt32.toNat heq
      rw [UInt32.toNat_ofNat', UInt32.toNat_ofNat'] at hmod
      omega
    refine ⟨_, ?_, hcreated.step_terminate hend, ?_, congrArg (· + 1) hmade⟩
    · rw [shortLived_succ, ← List.cons_append, run_append, hrun]
      exact congrArg (Option.bind · (run step · [])) hend
    · simp only [hbirths, hmade]
      rw [List.filter_cons_of_neg (by simp)]
      exact List.filter_eq_self.mpr (List.forall_mem_singleton.mpr (decide_eq_true hother))

/-- The first process lives on while 2 ^ 32 - 1 others come and go: the next one
gets its PID and its record. -/
theorem pid_returned_again :
    ¬ Guarded step ReturnsFresh constructed
      (.createProcess "long" 1 :: shortLived (2 ^ 32 - 1) ++ [.createProcess "next" 1]) := by
  intro h
  obtain ⟨client, hrun, htracked, hbirths, hmade⟩ := run_shortLived (show 2 ^ 32 - 1 < 2 ^ 32 by omega)
  have hfresh := along_iff_forall_split.mp h _ (.createProcess "next" 1) [] rfl client _ hrun rfl
  have hrecent := (htracked.returnsFresh_iff _).mp hfresh 0 (hbirths ▸ List.mem_singleton_self 0)
  omega

end Client

end Kernel.Process
