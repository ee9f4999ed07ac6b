import KernelcModerne.Lib.AListTotal
import KernelcModerne.Syscall.SystemCallManager

open Throwing

namespace Kernel.SystemCallManager

/-- A handler's run that `handleSyscall` reports as a failure. -/
def Failed (isFailure : Int → Prop) : Except String Int → Prop
  | .ok result => isFailure result
  | .error _ => True

/-- `handleFileOpen` gets to call `open`, which answers the descriptor `fd`. -/
def Opens (env : Environment) (params : List UInt64) (fd : Int) : Prop :=
  ∃ path mode rest caller, params = path :: mode :: rest ∧ isBlank env path = false ∧
    env.getCurrentProcessId 0 = .ok caller ∧
    env.checkAccess (env.stringAt path) caller mode.toUInt32 = .ok true ∧
    env.openFile (env.stringAt path) (openFlags env mode.toUInt32) = fd ∧ 0 ≤ fd

/-- The calls after `open` throw nothing. -/
def OpenSettled (env : Environment) (fd : Int) : Prop :=
  ∃ caller registered, env.getCurrentProcessId 1 = .ok caller ∧
    env.registerFd caller fd = .ok registered

/-- `handleProcessCreate` gets to call `createProcess`, which answers a valid
process, for the executable at `path`. -/
def Creates (env : Environment) (params : List UInt64) (newPid : ProcessID) (path : String) : Prop :=
  ∃ pointer rest caller parentId, params = pointer :: rest ∧ pointer ≠ 0 ∧
    isBlank env (env.paramsAt pointer).path = false ∧
    env.stringAt (env.paramsAt pointer).path = path ∧
    env.getCurrentProcessId 0 = .ok caller ∧
    env.checkAccess path caller env.EXEC_PERMISSION = .ok true ∧
    env.getCurrentProcessId 1 = .ok parentId ∧
    env.createProcess ⟨(env.paramsAt pointer).name, (env.paramsAt pointer).priority, parentId⟩ =
      .ok newPid ∧
    newPid ≠ env.INVALID_PROCESS_ID

/-- The calls after `createProcess` throw nothing, and where one of them answers
false the process is terminated. -/
def CreateSettled (env : Environment) (newPid : ProcessID) (path : String) : Prop :=
  env.loadExecutable newPid path = .ok false ∧ env.terminateProcess newPid = .ok true ∨
    env.loadExecutable newPid path = .ok true ∧
      (env.initializeProcess newPid = .ok true ∨
        env.initializeProcess newPid = .ok false ∧ env.terminateProcess newPid = .ok true)

/-- `handleMemoryAlloc` gets to call `allocateMemory`, which answers a block. -/
def Allocates (env : Environment) (params : List UInt64) (pid : ProcessID) (ptr size : UInt64) : Prop :=
  ∃ rest, params = size :: rest ∧ size ≠ 0 ∧ size ≤ env.MAX_ALLOCATION_SIZE ∧
    env.getCurrentProcessId 0 = .ok pid ∧ env.checkMemoryLimit pid size = .ok true ∧
    env.allocateMemory size = .ok ptr ∧ ptr ≠ 0

/-- `registerMemoryAllocation` throws nothing; where it answers false the block
is freed, and where it answers true the block's address is no negative
`int64_t`. -/
def AllocationSettled (env : Environment) (pid : ProcessID) (ptr size : UInt64) : Prop :=
  env.registerMemoryAllocation pid ptr size = .ok true ∧ ptr.toNat < 2 ^ 63 ∨
    env.registerMemoryAllocation pid ptr size = .ok false ∧ env.freeMemory ptr = .ok true

section Handlers

variable (env : Environment) (resources : Resources)

theorem registerOpened_restores_iff {fd : Int} (hfd : 0 ≤ fd) :
    Restores (Failed (· < 0)) resources (registerOpened env fd) (resources.opened fd) ↔
      OpenSettled env fd := by
  have hleak := resources.opened_ne hfd
  have hback := resources.closed_opened hfd
  cases hcaller : env.getCurrentProcessId 1 with
  | error what => simp [Restores, runAt_bind, registerOpened, OpenSettled, Failed, hcaller, hleak]
  | ok caller =>
    cases hregister : env.registerFd caller fd with
    | error what =>
      simp [Restores, runAt_bind, registerOpened, OpenSettled, Failed, hcaller, hregister, hleak]
    | ok registered =>
      refine iff_of_true ?_ ⟨caller, registered, hcaller, hregister⟩
      cases registered with
      | false => simp [Restores, runAt_bind, registerOpened, hcaller, hregister, hback]
      | true =>
        simp only [Restores, runAt_bind, registerOpened, Failed, hcaller, hregister, runAt_call,
          Bool.not_true, Bool.false_eq_true, if_false, runAt_pure]
        exact fun hneg => absurd hneg (Int.not_lt.mpr hfd)

theorem loadCreated_restores_iff {newPid : ProcessID} (hpid : newPid ≠ env.INVALID_PROCESS_ID)
    (path : String) : Restores (Failed (· < 0)) resources (loadCreated env newPid path)
      (resources.created env.INVALID_PROCESS_ID newPid) ↔ CreateSettled env newPid path := by
  have hleak := resources.created_ne hpid
  have hback := resources.terminated_created hpid
  have hundo (errno : Int) (herrno : -errno < 0) : Restores (Failed (· < 0)) resources
      (do let done ← call (env.terminateProcess newPid)
          modify (·.terminated newPid done)
          return -errno) (resources.created env.INVALID_PROCESS_ID newPid) ↔
        env.terminateProcess newPid = .ok true := by
    cases hdone : env.terminateProcess newPid with
    | error what => simp [Restores, runAt_bind, Failed, hleak]
    | ok done =>
      cases done with
      | false => simpa [Restores, runAt_bind, Failed, Except.map, hleak] using herrno
      | true => simp [Restores, runAt_bind, hback]
  cases hload : env.loadExecutable newPid path with
  | error what => simp [Restores, runAt_bind, loadCreated, CreateSettled, Failed, hload, hleak]
  | ok loaded =>
    cases loaded with
    | false =>
      have hrun := hundo ENOEXEC (by decide)
      simp [Restores, runAt_bind, loadCreated, CreateSettled, hload] at hrun ⊢
      exact hrun
    | true =>
      cases hinit : env.initializeProcess newPid with
      | error what =>
        simp [Restores, runAt_bind, loadCreated, CreateSettled, Failed, hload, hinit, hleak]
      | ok ready =>
        cases ready with
        | false =>
          have hrun := hundo ENOMEM (by decide)
          simp [Restores, runAt_bind, loadCreated, CreateSettled, hload, hinit] at hrun ⊢
          exact hrun
        | true =>
          -- a process identifier is never a negative result
          refine iff_of_true ?_ (.inr ⟨hload, .inl hinit⟩)
          simp only [Restores, runAt_bind, loadCreated, Failed, hload, hinit, runAt_call, Bool.not_true,
            Bool.false_eq_true, if_false, runAt_pure]
          exact fun hneg => absurd hneg (Int.not_lt.mpr (Int.natCast_nonneg _))

theorem registerAllocated_restores_iff (pid : ProcessID) {ptr : UInt64} (hptr : ptr ≠ 0)
    (size : UInt64) : Restores (Failed (· ≤ 0)) resources (registerAllocated env pid ptr size)
      (resources.allocated ptr) ↔ AllocationSettled env pid ptr size := by
  have hleak := resources.allocated_ne hptr
  have hback := resources.freed_allocated hptr
  cases hregister : env.registerMemoryAllocation pid ptr size with
  | error what =>
    simp [Restores, runAt_bind, registerAllocated, AllocationSettled, Failed, hregister, hleak]
  | ok registered =>
    cases registered with
    | false =>
      cases hdone : env.freeMemory ptr with
      | error what =>
        simp [Restores, runAt_bind, registerAllocated, AllocationSettled, Failed, hregister, hdone, hleak]
      | ok done =>
        cases done with
        | false =>
          simp [Restores, runAt_bind, registerAllocated, AllocationSettled, Failed, hregister, hdone,
            Except.map, hleak]
        | true =>
          simp [Restores, runAt_bind, registerAllocated, AllocationSettled, hregister, hdone, hback]
    | true =>
      have hsign : ¬ asInt64 ptr ≤ 0 ↔ ptr.toNat < 2 ^ 63 := by
        have hpos : ptr.toNat ≠ 0 := fun hzero => hptr (UInt64.toNat_inj.mp hzero)
        have hlt := ptr.toNat_lt
        unfold asInt64
        split <;> omega
      rw [AllocationSettled, ← hsign]
      simp [Restores, runAt_bind, registerAllocated, Failed, hregister, hleak]

/-- What `open` answers is settled, if it is a descriptor. -/
theorem opened_restores_iff (fd : Int) :
    Restores (Failed (· < 0)) resources (if fd < 0 then return -env.errno else registerOpened env fd)
      (resources.opened fd) ↔ (0 ≤ fd → OpenSettled env fd) := by
  by_cases hfd : fd < 0
  · rw [if_pos hfd, Resources.opened, if_pos hfd]
    exact iff_of_true restores_pure_self fun hpos => absurd hfd (Int.not_lt.mpr hpos)
  · rw [if_neg hfd, imp_iff_right (Int.not_lt.mp hfd)]
    exact registerOpened_restores_iff env resources (Int.not_lt.mp hfd)

/-- `handleFileOpen` leaves no descriptor behind on failure exactly when what
follows the call of `open` throws nothing. -/
theorem handleFileOpen_restores_iff (params : List UInt64) :
    Restores (Failed (· < 0)) resources (handleFileOpen env params) resources ↔
      ∀ fd, Opens env params fd → OpenSettled env fd := by
  unfold handleFileOpen
  split
  case h_1 path mode rest =>
    simp only [restores_ite_pure, ↓restores_require, restores_call_bind_self, restores_modify_bind,
      opened_restores_iff]
    constructor
    · rintro h fd ⟨path, mode, rest, caller, hparams, hblank, hcaller, haccess, rfl, hfd⟩
      cases hparams
      exact h (by simp [hblank]) caller hcaller haccess hfd
    · intro h hblank caller hcaller haccess hfd
      exact h _ ⟨path, mode, rest, caller, rfl, eq_false_of_ne_true hblank, hcaller, haccess, rfl, hfd⟩
  case h_2 hshort =>
    refine iff_of_true restores_pure_self ?_
    rintro fd ⟨path, mode, rest, _, rfl, _⟩
    exact absurd rfl (hshort path mode rest)

/-- What `createProcess` answers is settled, if it is a process. -/
theorem created_restores_iff (newPid : ProcessID) (path : String) :
    Restores (Failed (· < 0)) resources
      (if newPid = env.INVALID_PROCESS_ID then return -EAGAIN else loadCreated env newPid path)
      (resources.created env.INVALID_PROCESS_ID newPid) ↔
        (newPid ≠ env.INVALID_PROCESS_ID → CreateSettled env newPid path) := by
  by_cases hpid : newPid = env.INVALID_PROCESS_ID
  · rw [if_pos hpid, Resources.created, if_pos hpid]
    exact iff_of_true restores_pure_self fun hne => absurd hpid hne
  · rw [if_neg hpid, imp_iff_right hpid]
    exact loadCreated_restores_iff env resources hpid path

/-- `handleProcessCreate` leaves no process behind on failure exactly when what
follows the call of `createProcess` throws nothing and can be undone. -/
theorem handleProcessCreate_restores_iff (params : List UInt64) :
    Restores (Failed (· < 0)) resources (handleProcessCreate env params) resources ↔
      ∀ newPid path, Creates env params newPid path → CreateSettled env newPid path := by
  unfold handleProcessCreate
  split
  case h_1 =>
    refine iff_of_true restores_pure_self ?_
    rintro newPid path ⟨pointer, rest, _, _, hparams, _⟩
    cases hparams
  case h_2 pointer rest =>
    simp only [restores_ite_pure, ↓restores_require, restores_call_bind_self, restores_modify_bind,
      created_restores_iff]
    constructor
    · rintro h newPid _ ⟨pointer, rest, caller, parentId, hparams, hpointer, hblank, rfl, hcaller, haccess,
        hparent, hcreate, hpid⟩
      cases hparams
      exact h hpointer (by simp [hblank]) caller hcaller haccess parentId hparent newPid hcreate hpid
    · intro h hpointer hblank caller hcaller haccess parentId hparent newPid hcreate hpid
      exact h newPid _ ⟨pointer, rest, caller, parentId, rfl, hpointer, eq_false_of_ne_true hblank, rfl,
        hcaller, haccess, hparent, hcreate, hpid⟩

/-- What `allocateMemory` answers is settled, if it is a block. -/
theorem allocated_restores_iff (pid : ProcessID) (ptr size : UInt64) :
    Restores (Failed (· ≤ 0)) resources (if ptr = 0 then return 0 else registerAllocated env pid ptr size)
      (resources.allocated ptr) ↔ (ptr ≠ 0 → AllocationSettled env pid ptr size) := by
  by_cases hptr : ptr = 0
  · rw [if_pos hptr, Resources.allocated, if_pos hptr]
    exact iff_of_true restores_pure_self fun hne => absurd hptr hne
  · rw [if_neg hptr, imp_iff_right hptr]
    exact registerAllocated_restores_iff env resources pid hptr size

/-- `handleMemoryAlloc` leaves no block behind on failure exactly when what
follows the call of `allocateMemory` throws nothing and can be undone. -/
theorem handleMemoryAlloc_restores_iff (params : List UInt64) :
    Restores (Failed (· ≤ 0)) resources (handleMemoryAlloc env params) resources ↔
      ∀ pid ptr size, Allocates env params pid ptr size → AllocationSettled env pid ptr size := by
  unfold handleMemoryAlloc
  split
  case h_1 =>
    refine iff_of_true restores_pure_self ?_
    rintro pid ptr size ⟨rest, hparams, _⟩
    cases hparams
  case h_2 size rest =>
    simp only [restores_ite_pure, ↓restores_require, restores_call_bind_self, restores_modify_bind,
      allocated_restores_iff, not_or, gt_iff_lt, UInt64.not_lt]
    constructor
    · rintro h pid ptr size ⟨rest, hparams, hsize, hmax, hpid, hlimit, hallocate, hptr⟩
      cases hparams
      exact h ⟨hsize, hmax⟩ pid hpid hlimit ptr hallocate hptr
    · rintro h ⟨hsize, hmax⟩ pid hpid hlimit ptr hallocate hptr
      exact h pid ptr size ⟨rest, rfl, hsize, hmax, hpid, hlimit, hallocate, hptr⟩

end Handlers

/-- The manager after construction and further registrations. -/
def registeredWith (env : Environment) (more : List (UInt32 × SyscallHandler)) : SystemCallManager :=
  more.foldl (fun self r => (self.registerSyscall r.1 r.2).1) (initializeSyscallTable env)

/-- A registration never replaces a handler. -/
theorem registerSyscall_lookup {self : SystemCallManager} {number : UInt32} {handler : SyscallHandler}
    (h : self.syscallTable.lookup number = some handler) (other : UInt32) (new : SyscallHandler) :
    (self.registerSyscall other new).1.syscallTable.lookup number = some handler := by
  unfold registerSyscall
  split
  · exact h
  · rename_i hnew
    have hne : number ≠ other := by
      rintro rfl
      exact hnew (AList.mem_of_lookup h)
    rw [AList.lookup_insert_ne hne]
    exact h

theorem registeredWith_lookup {env : Environment} {number : UInt32} {handler : SyscallHandler}
    (h : (initializeSyscallTable env).syscallTable.lookup number = some handler)
    (more : List (UInt32 × SyscallHandler)) :
    (registeredWith env more).syscallTable.lookup number = some handler := by
  refine List.foldlRecOn (motive := fun self : SystemCallManager =>
    self.syscallTable.lookup number = some handler) _ _ h ?_
  intro self hself r _
  exact registerSyscall_lookup hself r.1 r.2

/-- The results that report a failure: negative ones, and null for the
allocation. -/
def ReportsFailure (syscallNumber : UInt32) (result : Int) : Prop :=
  result < 0 ∨ syscallNumber = 0x03 ∧ result = 0

/-- A system call that reports a failure leaves the same resources held. -/
def LeavesNothing (self : SystemCallManager) (resources : Resources) (syscallNumber : UInt32)
    (params : List UInt64) : Prop :=
  ReportsFailure syscallNumber (self.handleSyscall resources syscallNumber params).2.2 →
    (self.handleSyscall resources syscallNumber params).2.1 = resources

theorem leavesNothing_iff_restores {self : SystemCallManager} {syscallNumber : UInt32}
    {handler : SyscallHandler} (h : self.syscallTable.lookup syscallNumber = some handler)
    (resources : Resources) (params : List UInt64) :
    self.LeavesNothing resources syscallNumber params ↔
      Restores (Failed (ReportsFailure syscallNumber)) resources (handler params) resources := by
  simp only [LeavesNothing, handleSyscall, h, Restores]
  cases (handler params).runAt resources with
  | mk result after =>
    cases result with
    | ok value => exact Iff.rfl
    | error what => simp [Failed, ReportsFailure]

/-- Whatever the call acquires is settled: no exception after it, and each undo
that is needed done. -/
def CallSettled (env : Environment) (syscallNumber : UInt32) (params : List UInt64) : Prop :=
  (syscallNumber = 0x01 → ∀ fd, Opens env params fd → OpenSettled env fd) ∧
  (syscallNumber = 0x02 → ∀ newPid path, Creates env params newPid path →
    CreateSettled env newPid path) ∧
  (syscallNumber = 0x03 → ∀ pid ptr size, Allocates env params pid ptr size →
    AllocationSettled env pid ptr size)

/-- The three system calls that acquire something leave nothing behind on
failure exactly when what they acquire is settled. -/
theorem leavesNothing_iff_settled (env : Environment) (more : List (UInt32 × SyscallHandler))
    (resources : Resources) {syscallNumber : UInt32} (hnumber : syscallNumber ∈ [0x01, 0x02, 0x03])
    (params : List UInt64) :
    (registeredWith env more).LeavesNothing resources syscallNumber params ↔
      CallSettled env syscallNumber params := by
  have hnegative {number : UInt32} (hne : number ≠ 0x03) : ReportsFailure number = (· < 0) := by
    funext result
    simp [ReportsFailure, hne]
  have hnull : ReportsFailure 0x03 = (· ≤ 0) := by
    funext result
    simp [ReportsFailure, Int.le_iff_lt_or_eq]
  simp only [List.mem_cons, List.not_mem_nil, or_false] at hnumber
  cases hnumber with
  | inl hopen =>
    subst hopen
    have htable : (initializeSyscallTable env).syscallTable.lookup 0x01 = some (handleFileOpen env) := rfl
    have hlookup := registeredWith_lookup htable more
    rw [leavesNothing_iff_restores hlookup, hnegative (by decide), handleFileOpen_restores_iff]
    simp [CallSettled]
  | inr hrest =>
    cases hrest with
    | inl hcreate =>
      subst hcreate
      have htable : (initializeSyscallTable env).syscallTable.lookup 0x02 = some (handleProcessCreate env) := rfl
      have hlookup := registeredWith_lookup htable more
      rw [leavesNothing_iff_restores hlookup, hnegative (by decide), handleProcessCreate_restores_iff]
      simp [CallSettled]
    | inr hallocate =>
      subst hallocate
      have htable : (initializeSyscallTable env).syscallTable.lookup 0x03 = some (handleMemoryAlloc env) := rfl
      have hlookup := registeredWith_lookup htable more
      rw [leavesNothing_iff_restores hlookup, hnull, handleMemoryAlloc_restores_iff]
      simp [CallSettled]

/-- Managers that grant every request, except that `registerFd` throws. -/
def unregistrable : Environment where
  FILE_READ := 1
  FILE_WRITE := 2
  FILE_APPEND := 4
  FILE_CREATE := 8
  EXEC_PERMISSION := 1
  MAX_ALLOCATION_SIZE := 0x40000000
  INVALID_PROCESS_ID := 0
  stringAt _ := "/etc/hosts"
  paramsAt _ := ⟨0x1000, "shell", 1⟩
  errno := 0
  getCurrentProcessId _ := .ok 7
  checkAccess _ _ _ := .ok true
  openFile _ _ := 3
  registerFd _ _ := .error "std::bad_alloc"
  createProcess _ := .ok 8
  terminateProcess _ := .ok true
  loadExecutable _ _ := .ok true
  initializeProcess _ := .ok true
  checkMemoryLimit _ _ := .ok true
  allocateMemory _ := .ok 0x10000
  freeMemory _ := .ok true
  registerMemoryAllocation _ _ _ := .ok true
  validateSocket _ _ := .ok true
  checkMemoryAccess _ _ _ := .ok true
  checkNetworkAccess _ := .ok true
  performIO _ _ _ := .ok 0

theorem leavesNothing_iff_settled_unregistrable :
    (registeredWith unregistrable []).LeavesNothing ⟨[], [], []⟩ 0x02 [0x1000] ↔
      CallSettled unregistrable 0x02 [0x1000] :=
  leavesNothing_iff_settled _ _ _ (by decide) _

/-- The call answers -1 and the descriptor it opened stays open. -/
theorem descriptor_left_behind :
    ¬ ∀ env more resources, ∀ syscallNumber ∈ [0x01, 0x02, 0x03], ∀ params,
      (registeredWith env more).LeavesNothing resources syscallNumber params := by
  intro hall
  have hafter := hall unregistrable [] ⟨[], [], []⟩ 0x01 (by decide) [0x1000, 1] (.inl (by decide))
  exact absurd (congrArg Resources.descriptors hafter) (by decide)

end Kernel.SystemCallManager
