import KernelcModerne.Lib.Slots
import KernelcModerne.Lib.Transition
import KernelcModerne.Filesystem.MountPoints

open Transition

namespace Kernel.FileSystem.Mounted

structure FileDescriptor where
  id : UInt32
  path : Path
  flags : UInt32
  position : Nat
  deriving DecidableEq

/-- The open files. A pointer to a descriptor is read as its slot. -/
structure FileTable where
  nextFileDescriptorId : UInt32
  openFiles : List FileDescriptor

namespace FileTable

/-- The descriptor that the next open makes. -/
def nextFileDescriptor (self : FileTable) (path : Path) (flags : UInt32) : FileDescriptor where
  id := self.nextFileDescriptorId
  path := path
  flags := flags
  position := 0

def createFileDescriptor (self : FileTable) (path : Path) (flags : UInt32) : FileTable × Nat :=
  ({ nextFileDescriptorId := self.nextFileDescriptorId + 1
     openFiles := self.openFiles ++ [self.nextFileDescriptor path flags] }, self.openFiles.length)

def closeFileDescriptor (self : FileTable) (id : UInt32) : Except String FileTable :=
  match self.openFiles.find? (·.id == id) with
  | none => .error "Invalid file descriptor"
  | some _ => .ok { self with openFiles := self.openFiles.eraseP (·.id == id) }

/-- A close that succeeds takes out the first descriptor with the id. -/
theorem closeFileDescriptor_eq_ok {self after : FileTable} {id : UInt32}
    (h : self.closeFileDescriptor id = .ok after) :
    (∃ fd ∈ self.openFiles, fd.id = id) ∧
      after = { self with openFiles := self.openFiles.eraseP (·.id == id) } := by
  unfold closeFileDescriptor at h
  cases hfind : self.openFiles.find? (·.id == id) with
  | none =>
    rw [hfind] at h
    cases h
  | some fd =>
    rw [hfind] at h
    exact ⟨⟨fd, List.mem_of_find?_eq_some hfind, beq_iff_eq.mp (List.find?_some hfind :)⟩,
      (Except.ok.inj h).symm⟩

end FileTable

/-- The file cache and the drivers that `openFile` calls, none of which the
repository defines, with the security manager. -/
structure Services (Driver Cache Content : Type*) where
  get : Cache → Path → Cache × Option Content
  store : Cache → Path → Content → Cache
  initialized : Driver → Option Driver
  openFile : Driver → Path → UInt32 → Driver × Except String Content
  checkAccess : Path → Bool

/-- The mounted drivers with the file cache and the open files. -/
structure OpenFileSystem (Driver Cache : Type*) extends VirtualFileSystem Driver where
  cache : Cache
  files : FileTable

namespace OpenFileSystem

variable {Driver Cache Content : Type*}

def openFile (self : OpenFileSystem Driver Cache) (services : Services Driver Cache Content) (path : Path)
    (flags : UInt32) : OpenFileSystem Driver Cache × Except String Nat :=
  if ¬ self.validatePath services.checkAccess path then (self, .error "Invalid path")
  else
    match services.get self.cache path with
    | (cache, some _) =>
      let (files, fd) := self.files.createFileDescriptor path flags
      ({ self with cache, files }, .ok fd)
    | (cache, none) =>
      match self.getDriverForPath services.initialized path with
      | (none, drivers) => ({ drivers with cache, files := self.files }, .error "No driver found")
      | (some driver, drivers) =>
        let (driver, result) := services.openFile driver path flags
        let fsDrivers := drivers.fsDrivers.replace (self.getMountPoint path) driver
        match result with
        | .error error => ({ fsDrivers, cache, files := self.files }, .error error)
        | .ok content =>
          let (files, fd) := self.files.createFileDescriptor path flags
          ({ fsDrivers, cache := services.store cache path content, files }, .ok fd)

/-- `openFile` gives a new descriptor the next slot, or fails and opens nothing. -/
theorem openFile_files (self : OpenFileSystem Driver Cache) (services : Services Driver Cache Content)
    (path : Path) (flags : UInt32) :
    (∃ error, (self.openFile services path flags).2 = .error error ∧
      (self.openFile services path flags).1.files = self.files) ∨
    (self.openFile services path flags).2 = .ok self.files.openFiles.length ∧
      (self.openFile services path flags).1.files = (self.files.createFileDescriptor path flags).1 := by
  unfold openFile
  by_cases hvalid : self.validatePath services.checkAccess path
  · rw [if_neg (not_not.mpr hvalid)]
    cases services.get self.cache path with
    | mk cache cachedFile =>
      cases cachedFile with
      | some content => exact .inr ⟨rfl, rfl⟩
      | none =>
        cases self.getDriverForPath services.initialized path with
        | mk found drivers =>
          cases found with
          | none => exact .inl ⟨_, rfl, rfl⟩
          | some driver =>
            simp only
            cases (services.openFile driver path flags).2 with
            | error error => exact .inl ⟨_, rfl, rfl⟩
            | ok content => exact .inr ⟨rfl, rfl⟩
  · rw [if_pos hvalid]
    exact .inl ⟨_, rfl, rfl⟩

end OpenFileSystem

/-- A call on the open files. -/
inductive FileOp where
  | openFile (path : Path) (flags : UInt32)
  | closeFileDescriptor (id : UInt32)

/-- A file system, and for each open descriptor, in the order of the opens, the
slot that its open returned. -/
structure Client (Driver Cache : Type*) where
  fileSystem : OpenFileSystem Driver Cache
  handles : List (FileDescriptor × Nat)

namespace Client

variable {Driver Cache Content : Type*}

/-- A file system on which nothing has been opened. -/
def constructed (fsDrivers : AList fun _ : Path => Driver) (cache : Cache) (nextFileDescriptorId : UInt32) :
    Client Driver Cache where
  fileSystem := { fsDrivers, cache, files := { nextFileDescriptorId, openFiles := [] } }
  handles := []

variable (services : Services Driver Cache Content)

/-- A call that succeeds. -/
def step (client : Client Driver Cache) : FileOp → Option (Client Driver Cache)
  | .openFile path flags =>
    match client.fileSystem.openFile services path flags with
    | (_, .error _) => none
    | (fileSystem, .ok fd) =>
      some ⟨fileSystem, client.handles ++ [(client.fileSystem.files.nextFileDescriptor path flags, fd)]⟩
  | .closeFileDescriptor id =>
    match client.fileSystem.files.closeFileDescriptor id with
    | .error _ => none
    | .ok files => some ⟨{ client.fileSystem with files }, client.handles.eraseP (·.1.id == id)⟩

/-- Each open descriptor is in the slot that its open returned. -/
def SlotsHold (client : Client Driver Cache) : Prop :=
  Slots.Hold client.fileSystem.files.openFiles client.handles

/-- A close takes the descriptor in the last slot. -/
def ClosesLast (client : Client Driver Cache) : FileOp → Prop
  | .openFile _ _ => True
  | .closeFileDescriptor id => ∀ fd ∈ client.fileSystem.files.openFiles.dropLast, fd.id ≠ id

/-- The slots are those of the descriptors in the order of their opens. -/
def InOrder (client : Client Driver Cache) : Prop :=
  client.handles = client.fileSystem.files.openFiles.zipIdx

variable {services} {client after : Client Driver Cache}

theorem InOrder.slotsHold (h : client.InOrder) : client.SlotsHold := by
  rw [SlotsHold, h]
  exact Slots.hold_zipIdx _

theorem step_openFile {path : Path} {flags : UInt32}
    (hstep : client.step services (.openFile path flags) = some after) :
    after.fileSystem.files = (client.fileSystem.files.createFileDescriptor path flags).1 ∧
      after.handles = client.handles ++ [(client.fileSystem.files.nextFileDescriptor path flags,
        client.fileSystem.files.openFiles.length)] := by
  have hfiles := client.fileSystem.openFile_files services path flags
  simp only [step] at hstep
  cases hopen : client.fileSystem.openFile services path flags with
  | mk fileSystem result =>
    rw [hopen] at hstep hfiles
    cases result with
    | error error => cases hstep
    | ok fd =>
      obtain rfl := Option.some.inj hstep
      cases hfiles with
      | inl hfailed =>
        obtain ⟨error, hresult, _⟩ := hfailed
        cases hresult
      | inr hok =>
        obtain ⟨hresult, hafter⟩ := hok
        cases hresult
        exact ⟨hafter, rfl⟩

theorem step_closeFileDescriptor {id : UInt32}
    (hstep : client.step services (.closeFileDescriptor id) = some after) :
    (∃ fd ∈ client.fileSystem.files.openFiles, fd.id = id) ∧
      after.fileSystem.files.openFiles = client.fileSystem.files.openFiles.eraseP (·.id == id) ∧
      after.handles = client.handles.eraseP (·.1.id == id) := by
  simp only [step] at hstep
  cases hclose : client.fileSystem.files.closeFileDescriptor id with
  | error error =>
    rw [hclose] at hstep
    cases hstep
  | ok files =>
    rw [hclose] at hstep
    obtain ⟨hopen, hfiles⟩ := FileTable.closeFileDescriptor_eq_ok hclose
    obtain rfl := Option.some.inj hstep
    exact ⟨hopen, congrArg FileTable.openFiles hfiles, rfl⟩

theorem InOrder.openFile (h : client.InOrder) {path : Path} {flags : UInt32}
    (hstep : client.step services (.openFile path flags) = some after) : after.InOrder := by
  obtain ⟨hfiles, hhandles⟩ := step_openFile hstep
  rw [InOrder, hhandles, hfiles, h, FileTable.createFileDescriptor, List.zipIdx_append]
  simp

theorem closesLast_iff {id : UInt32} : client.ClosesLast (.closeFileDescriptor id) ↔
    ∀ fd ∈ client.fileSystem.files.openFiles.dropLast, ¬ fd.id == id := by
  simp only [ClosesLast, beq_iff_eq, ne_eq]

/-- A close keeps the others in their slots exactly when it takes the last. -/
theorem InOrder.slotsHold_iff (h : client.InOrder) {op : FileOp}
    (hstep : client.step services op = some after) : after.SlotsHold ↔ client.ClosesLast op := by
  cases op with
  | openFile path flags => exact iff_of_true (h.openFile hstep).slotsHold trivial
  | closeFileDescriptor id =>
    obtain ⟨⟨fd, hfd, hid⟩, hfiles, hhandles⟩ := step_closeFileDescriptor hstep
    rw [SlotsHold, hfiles, hhandles, h, closesLast_iff]
    exact Slots.hold_eraseP_iff ⟨fd, hfd, beq_iff_eq.mpr hid⟩

theorem InOrder.step (h : client.InOrder) {op : FileOp} (hstep : client.step services op = some after)
    (hlast : client.ClosesLast op) : after.InOrder := by
  cases op with
  | openFile path flags => exact h.openFile hstep
  | closeFileDescriptor id =>
    obtain ⟨⟨fd, hfd, hid⟩, hfiles, hhandles⟩ := step_closeFileDescriptor hstep
    rw [InOrder, hfiles, hhandles, h]
    exact Slots.zipIdx_eraseP (p := (·.id == id)) ⟨fd, hfd, beq_iff_eq.mpr hid⟩
      (closesLast_iff.mp hlast)

/-- The descriptors stay in their slots all along a run exactly when each close
takes the one in the last slot. -/
theorem always_slotsHold_iff (services : Services Driver Cache Content)
    (fsDrivers : AList fun _ : Path => Driver) (cache : Cache) (nextFileDescriptorId : UInt32)
    (ops : List FileOp) :
    Always (step services) SlotsHold (constructed fsDrivers cache nextFileDescriptorId) ops ↔
      Guarded (step services) ClosesLast (constructed fsDrivers cache nextFileDescriptorId) ops := by
  have hinit : InOrder (constructed fsDrivers cache nextFileDescriptorId) := rfl
  have hiff : Along (step services) (fun _ _ after => after.SlotsHold)
      (constructed fsDrivers cache nextFileDescriptorId) ops ↔
        Guarded (step services) ClosesLast (constructed fsDrivers cache nextFileDescriptorId) ops := by
    apply along_iff_along InOrder _ _ ops hinit
    · exact fun client op after h hstep => h.slotsHold_iff hstep
    · exact fun client op after h hstep hhold => h.step hstep ((h.slotsHold_iff hstep).mp hhold)
  exact ⟨fun hall => hiff.mp hall.2, fun hlast => ⟨hinit.slotsHold, hiff.mpr hlast⟩⟩

/-- A driver that opens every file, and no cache. -/
def openAll : Services Unit Unit Unit where
  get cache _ := (cache, none)
  store cache _ _ := cache
  initialized := some
  openFile driver _ _ := (driver, .ok ())
  checkAccess _ := true

/-- Closing the first of two files moves the second into its slot. -/
theorem second_file_moves :
    ¬ Always (step openAll) SlotsHold (constructed (AList.singleton ['/'] ()) () 0)
      [.openFile "/a".toList 0, .openFile "/b".toList 0, .closeFileDescriptor 0] := by
  rintro ⟨_, h⟩
  obtain ⟨_, h⟩ := h _ rfl
  obtain ⟨_, h⟩ := h _ rfl
  obtain ⟨hhold, _⟩ := h _ rfl
  exact absurd (hhold (⟨1, "/b".toList, 0, 0⟩, 1) List.mem_cons_self) (by decide)

end Client

end Kernel.FileSystem.Mounted
