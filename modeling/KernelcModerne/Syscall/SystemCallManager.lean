import Mathlib.Algebra.Group.Int.Defs
import Mathlib.Algebra.Group.Nat.Defs
import Mathlib.Data.List.AList
import KernelcModerne.Lib.Throwing

open Throwing

namespace Kernel

abbrev ProcessID := UInt32

namespace SystemCallManager

def EINVAL : Int := 22
def EACCES : Int := 13
def EMFILE : Int := 24
def EAGAIN : Int := 11
def ENOEXEC : Int := 8
def ENOMEM : Int := 12
def EBADF : Int := 9
def EFAULT : Int := 14

def O_RDONLY : UInt32 := 0
def O_WRONLY : UInt32 := 1
def O_CREAT : UInt32 := 0o100
def O_APPEND : UInt32 := 0o2000

/-- Pointers are addresses, 0 for null. -/
structure ProcessCreationParams where
  path : UInt64
  name : String
  priority : UInt32

structure ProcessAttributes where
  name : String
  priority : UInt32
  parentId : ProcessID

/-- What a manager's call does: it answers, or it throws an exception with the
given `what()`. -/
abbrev Answer (α : Type) := Except String α

/-- What is held: a descriptor, process or block twice when it was acquired
twice. -/
structure Resources where
  descriptors : List Int
  processes : List ProcessID
  allocations : List UInt64
  deriving DecidableEq

/-- The code and the memory around the handlers, during one system call.
`getCurrentProcessId n` is the answer of the `n`-th such call in a handler. -/
structure Environment where
  FILE_READ : UInt32
  FILE_WRITE : UInt32
  FILE_APPEND : UInt32
  FILE_CREATE : UInt32
  EXEC_PERMISSION : UInt32
  MAX_ALLOCATION_SIZE : UInt64
  INVALID_PROCESS_ID : ProcessID
  stringAt : UInt64 → String
  paramsAt : UInt64 → ProcessCreationParams
  errno : Int
  getCurrentProcessId : Nat → Answer ProcessID
  checkAccess : String → ProcessID → UInt32 → Answer Bool
  openFile : String → UInt32 → Int
  registerFd : ProcessID → Int → Answer Bool
  createProcess : ProcessAttributes → Answer ProcessID
  terminateProcess : ProcessID → Answer Bool
  loadExecutable : ProcessID → String → Answer Bool
  initializeProcess : ProcessID → Answer Bool
  checkMemoryLimit : ProcessID → UInt64 → Answer Bool
  allocateMemory : UInt64 → Answer UInt64
  freeMemory : UInt64 → Answer Bool
  registerMemoryAllocation : ProcessID → UInt64 → UInt64 → Answer Bool
  validateSocket : ProcessID → Int → Answer Bool
  checkMemoryAccess : ProcessID → UInt64 → UInt64 → Answer Bool
  checkNetworkAccess : ProcessID → Answer Bool
  performIO : Int → UInt64 → UInt64 → Answer Int

namespace Resources

/-- A call of `open` that answers `fd`. -/
def opened (self : Resources) (fd : Int) : Resources :=
  if fd < 0 then self else { self with descriptors := fd :: self.descriptors }

def closed (self : Resources) (fd : Int) : Resources :=
  { self with descriptors := self.descriptors.erase fd }

/-- A call of `createProcess` that answers `pid`. -/
def created (self : Resources) (invalid pid : ProcessID) : Resources :=
  if pid = invalid then self else { self with processes := pid :: self.processes }

/-- A call of `terminateProcess`, which ends the process when it answers true. -/
def terminated (self : Resources) (pid : ProcessID) (done : Bool) : Resources :=
  if done then { self with processes := self.processes.erase pid } else self

/-- A call of `allocateMemory` that answers `ptr`. -/
def allocated (self : Resources) (ptr : UInt64) : Resources :=
  if ptr = 0 then self else { self with allocations := ptr :: self.allocations }

/-- A call of `freeMemory`, which frees the block when it answers true. -/
def freed (self : Resources) (ptr : UInt64) (done : Bool) : Resources :=
  if done then { self with allocations := self.allocations.erase ptr } else self

variable (self : Resources) {fd : Int} {invalid pid : ProcessID} {ptr : UInt64}

theorem opened_ne (hfd : 0 ≤ fd) : self.opened fd ≠ self := by
  intro h
  rw [opened, if_neg (Int.not_lt.mpr hfd)] at h
  exact List.cons_ne_self _ _ (congrArg descriptors h)

theorem closed_opened (hfd : 0 ≤ fd) : (self.opened fd).closed fd = self := by
  rw [opened, if_neg (Int.not_lt.mpr hfd), closed]
  simp only [List.erase_cons_head]

theorem created_ne (hpid : pid ≠ invalid) : self.created invalid pid ≠ self := by
  intro h
  rw [created, if_neg hpid] at h
  exact List.cons_ne_self _ _ (congrArg processes h)

theorem terminated_created (hpid : pid ≠ invalid) :
    (self.created invalid pid).terminated pid true = self := by
  rw [created, if_neg hpid, terminated, if_pos rfl]
  simp only [List.erase_cons_head]

theorem allocated_ne (hptr : ptr ≠ 0) : self.allocated ptr ≠ self := by
  intro h
  rw [allocated, if_neg hptr] at h
  exact List.cons_ne_self _ _ (congrArg allocations h)

theorem freed_allocated (hptr : ptr ≠ 0) : (self.allocated ptr).freed ptr true = self := by
  rw [allocated, if_neg hptr, freed, if_pos rfl]
  simp only [List.erase_cons_head]

/-- A call that answers false leaves its resource held. -/
@[simp] theorem terminated_false : self.terminated pid false = self := rfl

@[simp] theorem freed_false : self.freed ptr false = self := rfl

end Resources

/-- `static_cast<int>` of a parameter. -/
def asInt (param : UInt64) : Int :=
  let low : Nat := param.toNat % 2 ^ 32
  if low < 2 ^ 31 then low else low - 2 ^ 32

/-- `reinterpret_cast<int64_t>` of a pointer. -/
def asInt64 (ptr : UInt64) : Int :=
  if ptr.toNat < 2 ^ 63 then ptr.toNat else ptr.toNat - 2 ^ 64

end SystemCallManager

open SystemCallManager

abbrev SyscallHandler := List UInt64 → Throwing String Resources Int

/-- The manager, with the calls of `logError` in order. -/
structure SystemCallManager where
  syscallTable : AList fun _ : UInt32 => SyscallHandler
  syscallCounter : UInt64
  errors : List (UInt32 × String)

namespace SystemCallManager

/-- `!path || strlen(path) == 0`. -/
def isBlank (env : Environment) (path : UInt64) : Bool :=
  path = 0 ∨ env.stringAt path = ""

def openFlags (env : Environment) (mode : UInt32) : UInt32 :=
  let flags := 0
  let flags := if mode &&& env.FILE_READ ≠ 0 then flags ||| O_RDONLY else flags
  let flags := if mode &&& env.FILE_WRITE ≠ 0 then flags ||| O_WRONLY else flags
  let flags := if mode &&& env.FILE_APPEND ≠ 0 then flags ||| O_APPEND else flags
  if mode &&& env.FILE_CREATE ≠ 0 then flags ||| O_CREAT else flags

/-- `handleFileOpen` from the test of `fd >= 0` on. -/
def registerOpened (env : Environment) (fd : Int) : Throwing String Resources Int := do
  let caller ← call (env.getCurrentProcessId 1)
  let registered ← call (env.registerFd caller fd)
  if !registered then
    modify (·.closed fd)
    return -EMFILE
  else return fd

def handleFileOpen (env : Environment) (params : List UInt64) : Throwing String Resources Int :=
  match params with
  | path :: mode :: _ => do
    let mode := mode.toUInt32
    if isBlank env path then return -EINVAL
    else
      let caller ← call (env.getCurrentProcessId 0)
      let allowed ← call (env.checkAccess (env.stringAt path) caller mode)
      if !allowed then return -EACCES
      else
        let fd := env.openFile (env.stringAt path) (openFlags env mode)
        modify (·.opened fd)
        if fd < 0 then return -env.errno
        else registerOpened env fd
  | _ => return -1

/-- `handleProcessCreate` from the call of `loadExecutable` on. -/
def loadCreated (env : Environment) (newPid : ProcessID) (path : String) :
    Throwing String Resources Int := do
  let loaded ← call (env.loadExecutable newPid path)
  if !loaded then
    let done ← call (env.terminateProcess newPid)
    modify (·.terminated newPid done)
    return -ENOEXEC
  else
    let initialized ← call (env.initializeProcess newPid)
    if !initialized then
      let done ← call (env.terminateProcess newPid)
      modify (·.terminated newPid done)
      return -ENOMEM
    else return newPid.toNat

def handleProcessCreate (env : Environment) (params : List UInt64) : Throwing String Resources Int :=
  match params with
  | [] => return -1
  | pointer :: _ => do
    if pointer = 0 then return -EINVAL
    else
      let createParams := env.paramsAt pointer
      if isBlank env createParams.path then return -EINVAL
      else
        let caller ← call (env.getCurrentProcessId 0)
        let allowed ← call (env.checkAccess (env.stringAt createParams.path) caller env.EXEC_PERMISSION)
        if !allowed then return -EACCES
        else
          let parentId ← call (env.getCurrentProcessId 1)
          let newPid ← call (env.createProcess ⟨createParams.name, createParams.priority, parentId⟩)
          modify (·.created env.INVALID_PROCESS_ID newPid)
          if newPid = env.INVALID_PROCESS_ID then return -EAGAIN
          else loadCreated env newPid (env.stringAt createParams.path)

/-- `handleMemoryAlloc` from the call of `registerMemoryAllocation` on. -/
def registerAllocated (env : Environment) (pid : ProcessID) (ptr size : UInt64) :
    Throwing String Resources Int := do
  let registered ← call (env.registerMemoryAllocation pid ptr size)
  if !registered then
    let done ← call (env.freeMemory ptr)
    modify (·.freed ptr done)
    return 0
  else return asInt64 ptr

def handleMemoryAlloc (env : Environment) (params : List UInt64) : Throwing String Resources Int :=
  match params with
  | [] => return -1
  | size :: _ => do
    if size = 0 ∨ size > env.MAX_ALLOCATION_SIZE then return 0
    else
      let pid ← call (env.getCurrentProcessId 0)
      let within ← call (env.checkMemoryLimit pid size)
      if !within then return 0
      else
        let ptr ← call (env.allocateMemory size)
        modify (·.allocated ptr)
        if ptr = 0 then return 0
        else registerAllocated env pid ptr size

def handleNetworkIO (env : Environment) (params : List UInt64) : Throwing String Resources Int :=
  match params with
  | sockfd :: buffer :: length :: _ => do
    let sockfd := asInt sockfd
    if buffer = 0 ∨ length = 0 then return -EINVAL
    else
      let pid ← call (env.getCurrentProcessId 0)
      let valid ← call (env.validateSocket pid sockfd)
      if !valid then return -EBADF
      else
        let accessible ← call (env.checkMemoryAccess pid buffer length)
        if !accessible then return -EFAULT
        else
          let allowed ← call (env.checkNetworkAccess pid)
          if !allowed then return -EACCES
          else
            let result ← call (env.performIO sockfd buffer length)
            if result < 0 then return -env.errno
            else return result
  | _ => return -1

/-- `emplace`, which keeps a handler that is there. -/
def registerSyscall (self : SystemCallManager) (number : UInt32) (handler : SyscallHandler) :
    SystemCallManager × Bool :=
  if number ∈ self.syscallTable then (self, false)
  else ({ self with syscallTable := self.syscallTable.insert number handler }, true)

/-- The manager that the constructor builds, in the environment of one call. -/
def initializeSyscallTable (env : Environment) : SystemCallManager :=
  let self : SystemCallManager := ⟨∅, 0, []⟩
  let self := (self.registerSyscall 0x01 (handleFileOpen env)).1
  let self := (self.registerSyscall 0x02 (handleProcessCreate env)).1
  let self := (self.registerSyscall 0x03 (handleMemoryAlloc env)).1
  (self.registerSyscall 0x04 ( handleNetworkIO env)).1

def handleSyscall (self : SystemCallManager) (resources : Resources) (syscallNumber : UInt32)
    (params : List UInt64) : SystemCallManager × Resources × Int :=
  match self.syscallTable.lookup syscallNumber with
  | none =>
    ({ self with errors := self.errors ++ [(syscallNumber, "Invalid syscall number")] }, resources, -1)
  | some handler =>
    let counted := { self with syscallCounter := self.syscallCounter + 1 }
    match (handler params).runAt resources with
    | (.ok result, resources) => (counted, resources, result)
    | (.error what, resources) =>
      ({ counted with errors := self.errors ++ [(syscallNumber, what)] }, resources, -1)

end SystemCallManager

end Kernel
