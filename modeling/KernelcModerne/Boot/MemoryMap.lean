import Mathlib.Algebra.Group.Nat.Defs

namespace Kernel.Multiboot

def MULTIBOOT_INFO_MEMORY : UInt32 := 0x00000001
def MULTIBOOT_INFO_MEM_MAP : UInt32 := 0x00000040

def MULTIBOOT_MEMORY_AVAILABLE : UInt32 := 1
def MULTIBOOT_MEMORY_RESERVED : UInt32 := 2
def MULTIBOOT_MEMORY_ACPI_RECLAIMABLE : UInt32 := 3

/-- The fields of `multiboot_info_t` that the boot loader reads. -/
structure Info where
  flags : UInt32
  mem_upper : UInt32
  mmap_addr : UInt32
  mmap_length : UInt32

structure MemoryMapEntry where
  size : UInt32
  addr : UInt64
  len : UInt64
  type : UInt32

/-- The number that `count` bytes from `address` on hold, the lowest first. -/
def littleEndian (memory : UInt64 → UInt8) (address : UInt64) : Nat → Nat
  | 0 => 0
  | count + 1 => (memory address).toNat + 256 * littleEndian memory (address + 1) count

/-- `*mmap`, a packed structure. -/
def entryAt (memory : UInt64 → UInt8) (mmap : UInt64) : MemoryMapEntry where
  size := .ofNat (littleEndian memory mmap 4)
  addr := .ofNat (littleEndian memory (mmap + 4) 8)
  len := .ofNat (littleEndian memory (mmap + 12) 8)
  type := .ofNat (littleEndian memory (mmap + 20) 4)

/-- The sums of a walk over the map and its calls of `addFreeRegion`. -/
structure MemoryWalk where
  usableMemory : UInt64 := 0
  reservedMemory : UInt64 := 0
  acpiMemory : UInt64 := 0
  freeRegions : List (UInt64 × UInt64) := []

/-- The `switch` of the loop. -/
def MemoryWalk.visit (self : MemoryWalk) (mmap : MemoryMapEntry) : MemoryWalk :=
  if mmap.type = MULTIBOOT_MEMORY_AVAILABLE then
    { self with
      usableMemory := self.usableMemory + mmap.len
      freeRegions := self.freeRegions ++ [(mmap.addr, mmap.addr + mmap.len)] }
  else if mmap.type = MULTIBOOT_MEMORY_RESERVED then
    { self with reservedMemory := self.reservedMemory + mmap.len }
  else if mmap.type = MULTIBOOT_MEMORY_ACPI_RECLAIMABLE then
    { self with acpiMemory := self.acpiMemory + mmap.len }
  else self

/-- The loop over the map, for at most `fuel` tests of its condition. -/
def walkMemoryMap (memory : UInt64 → UInt8) (stop : UInt64) :
    Nat → UInt64 → MemoryWalk → Option MemoryWalk
  | 0, _, _ => none
  | fuel + 1, mmap, walk =>
    if mmap < stop then
      let entry := entryAt memory mmap
      walkMemoryMap memory stop fuel (mmap + entry.size.toUInt64 + 4) (walk.visit entry)
    else some walk

/-- The whole loop of `detectMemoryCapacity`. A loop that has not ended after
`2 ^ 64` tests has come back to an address and has no end. -/
def Info.walk (mbi : Info) (memory : UInt64 → UInt8) : Option MemoryWalk :=
  walkMemoryMap memory (mbi.mmap_addr + mbi.mmap_length).toUInt64 (2 ^ 64) mbi.mmap_addr.toUInt64 {}

end Kernel.Multiboot
