import Mathlib.Data.List.AList
import KernelcModerne.Filesystem.Paths
import KernelcModerne.Lib.LongestPrefix

open LongestPrefix

namespace Kernel.FileSystem.Mounted

/-- The mounted drivers, in the order in which the `std::unordered_map` is
walked. -/
structure VirtualFileSystem (Driver : Type*) where
  fsDrivers : AList fun _ : Path => Driver

namespace VirtualFileSystem

variable {Driver : Type*}

/-- `checkAccess` is what `securityManager->checkAccess` answers; an exception
counts as a refusal. -/
def isWithinPermittedBoundaries (self : VirtualFileSystem Driver) (checkAccess : Path → Bool) (path : Path) :
    Bool :=
  match self.fsDrivers.keys.find? fun mount => mount.isPrefixOf path with
  | some _ => checkAccess path
  | none => false

def validatePath (self : VirtualFileSystem Driver) (checkAccess : Path → Bool) (path : Path) : Bool :=
  if '\x00' ∈ path then false
  else if Path.MAX_PATH_LENGTH < path.length then false
  else if path.any (Path.invalidChars.contains ·) then false
  else
    let normalized := path.normalizePath
    if ¬ normalized.items.all Path.componentValid then false
    else if ['.', '.', '/'] <:+: normalized then self.isWithinPermittedBoundaries checkAccess normalized
    else true

/-- The body of the loop of `getMountPoint`, on `bestMatch` and `bestLength`. -/
def betterMatch (path : Path) (best : Path × Nat) (mount : Path) : Path × Nat :=
  if mount.isPrefixOf path ∧ best.2 < mount.length then (mount, mount.length) else best

def getMountPoint (self : VirtualFileSystem Driver) (path : Path) : Path :=
  (self.fsDrivers.keys.foldl (betterMatch path) ([], 0)).1

/-- `getDriverForPath`, where `initialized` answers the driver that is
initialized or whose `initialize()` succeeds. -/
def getDriverForPath (self : VirtualFileSystem Driver) (initialized : Driver → Option Driver) (path : Path) :
    Option Driver × VirtualFileSystem Driver :=
  let mountPoint := self.getMountPoint path
  if mountPoint.isEmpty then (none, self)
  else
    match self.fsDrivers.lookup mountPoint with
    | none => (none, self)
    | some driver =>
      match initialized driver with
      | none => (none, self)
      | some driver => (some driver, { fsDrivers := self.fsDrivers.replace mountPoint driver })

theorem foldl_betterMatch (mounts : List Path) (path best : Path) :
    mounts.foldl (betterMatch path) (best, best.length) =
      (mounts.foldl (better path) best, (mounts.foldl (better path) best).length) := by
  induction mounts generalizing best with
  | nil => rfl
  | cons mount mounts ih =>
    have hstep : betterMatch path (best, best.length) mount =
        (better path best mount, (better path best mount).length) := by
      simp only [betterMatch, better, List.isPrefixOf_iff_prefix]
      split <;> rfl
    rw [List.foldl_cons, List.foldl_cons, hstep]
    exact ih _

theorem getMountPoint_eq (self : VirtualFileSystem Driver) (path : Path) :
    self.getMountPoint path = longestPrefix self.fsDrivers.keys path :=
  congrArg Prod.fst (foldl_betterMatch self.fsDrivers.keys path [])

/-- The mount point of a path, if it has one, is a prefix with a driver. -/
theorem getMountPoint_mounted {self : VirtualFileSystem Driver} {path : Path} (h : self.getMountPoint path ≠ []) :
    self.getMountPoint path <+: path ∧ self.getMountPoint path ∈ self.fsDrivers := by
  rw [getMountPoint_eq] at h ⊢
  cases longestPrefix_mem self.fsDrivers.keys path with
  | inl hnone => exact absurd hnone h
  | inr hmem => exact ⟨longestPrefix_isPrefix _ _, AList.mem_keys.mpr hmem⟩

/-- The path, if it is accepted, is served by the mount point of the normalized
path. -/
def Contained (self : VirtualFileSystem Driver) (checkAccess : Path → Bool) (path : Path) : Prop :=
  self.validatePath checkAccess path = true → self.getMountPoint path = self.getMountPoint path.normalizePath

/-- Two mounted drivers. -/
def twoMounts : VirtualFileSystem Nat where
  fsDrivers := (AList.singleton "/mnt/b".toList 2).insert "/mnt/a".toList 1

end VirtualFileSystem

end Kernel.FileSystem.Mounted
