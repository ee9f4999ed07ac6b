import KernelcModerne.Lib.AListTotal
import KernelcModerne.Lib.Transition
import Mathlib.Logic.Function.Basic

open Transition

namespace Kernel

structure SharedSegment where
  address : Nat
  size : Nat
  refCount : Int

structure SharedMemoryManager where
  segments : AList fun _ : String => SharedSegment

/-- The bytes that one call of `mmap` has mapped. -/
structure Mapping where
  address : Nat
  size : Nat
  deriving DecidableEq

namespace SharedMemoryManager

def nullptr : Nat := 0

/-- The largest `int`. -/
def INT_MAX : Int := 2 ^ 31 - 1

def constructed : SharedMemoryManager where
  segments := ∅

def mappingOf (segment : SharedSegment) : Mapping := ⟨segment.address, segment.size⟩

/-- `allocate(name, size)`, where `mmap` fails (`none`) or maps `size` bytes at
an address. There is no result when `refCount` overflows. -/
def allocate (self : SharedMemoryManager) (name : String) (size : Nat) (mmap : Option Nat) :
    Option (SharedMemoryManager × Nat) :=
  match self.segments.lookup name with
  | some segment =>
    if segment.refCount = INT_MAX then none
    else some ({ segments := self.segments.insert name { segment with refCount := segment.refCount + 1 } },
      segment.address)
  | none =>
    match mmap with
    | none => some (self, nullptr)
    | some addr => some ({ segments := self.segments.insert name ⟨addr, size, 1⟩ }, addr)

/-- `deallocate(name)`, with the mapping that it passes to `munmap`. -/
def deallocate (self : SharedMemoryManager) (name : String) :
    SharedMemoryManager × Bool × Option Mapping :=
  match self.segments.lookup name with
  | none => (self, false, none)
  | some segment =>
    let segment := { segment with refCount := segment.refCount - 1 }
    if segment.refCount ≤ 0 then
      ({ segments := self.segments.erase name }, true, some (mappingOf segment))
    else ({ segments := self.segments.insert name segment }, true, none)

/-- The mappings of the segments. -/
def mappings (self : SharedMemoryManager) : List Mapping :=
  self.segments.entries.map fun entry => mappingOf entry.2

/-- A manager and what its callers and the system have seen of it: for each name
the addresses answered and the number of references given back since its segment
was created, and the mappings that have been created and unmapped. -/
structure Client where
  manager : SharedMemoryManager
  allocations : String → List Nat
  deallocations : String → Nat
  created : List Mapping
  unmapped : List Mapping

inductive Op where
  | allocate (name : String) (size : Nat) (mmap : Option Nat)
  | deallocate (name : String)

namespace Client

def constructed : Client where
  manager := .constructed
  allocations _ := []
  deallocations _ := 0
  created := []
  unmapped := []

/-- The mappings that exist. -/
def mapped (client : Client) : List Mapping := client.created.diff client.unmapped

/-- What `mmap` may answer: it fails, or the address is not null and none at
which a mapping exists. -/
def Fresh (client : Client) (mmap : Option Nat) : Prop :=
  ∀ addr, mmap = some addr → addr ≠ nullptr ∧ ∀ mapping ∈ client.mapped, mapping.address ≠ addr

instance (client : Client) : (mmap : Option Nat) → Decidable (client.Fresh mmap)
  | none => .isTrue nofun
  | some addr =>
    decidable_of_iff (addr ≠ nullptr ∧ ∀ mapping ∈ client.mapped, mapping.address ≠ addr)
      ⟨fun h _ heq => Option.some.inj heq ▸ h, fun h => h addr rfl⟩

/-- One call, on a system whose `mmap` answers fresh addresses. -/
def step (client : Client) : Op → Option Client
  | .allocate name size mmap =>
    if name ∉ client.manager.segments ∧ ¬ client.Fresh mmap then none
    else
      (client.manager.allocate name size mmap).map fun (manager, addr) =>
        if addr = nullptr then { client with manager }
        else if name ∈ client.manager.segments then
          { client with
            manager
            allocations := Function.update client.allocations name (addr :: client.allocations name) }
        else
          { client with
            manager
            allocations := Function.update client.allocations name [addr]
            deallocations := Function.update client.deallocations name 0
            created := ⟨addr, size⟩ :: client.created }
  | .deallocate name =>
    let (manager, freed, unmapped) := client.manager.deallocate name
    some
      { client with
        manager
        deallocations :=
          if freed then Function.update client.deallocations name (client.deallocations name + 1)
          else client.deallocations
        unmapped := unmapped.toList ++ client.unmapped }

end Client

end SharedMemoryManager

end Kernel
