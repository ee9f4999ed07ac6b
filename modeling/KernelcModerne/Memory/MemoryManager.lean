import Mathlib.Data.List.AList
import Mathlib.Data.List.Sort
import Mathlib.Data.Fin.VecNotation
import Mathlib.Logic.Function.Basic
import KernelcModerne.Lib.Word64

namespace Kernel.Memory

/-- The workloads the manager names; `other` is any further answer of the
detector. -/
inductive WorkloadType where
  | GAMING
  | CREATIVE
  | GENERAL
  | HIGH_PERFORMANCE
  | other (code : Nat)
  deriving DecidableEq

namespace OptimizedUnifiedMemoryManager

def PAGE_SIZE : Nat := 4096
def CACHE_LINE_SIZE : Nat := 64
def TLB_SIZE : Nat := 256

/-- The length of the `pools` array and of its configuration tables. -/
abbrev POOL_COUNT : Nat := 4

structure TLBEntry where
  virtualAddress : Nat
  physicalAddress : Nat
  valid : Bool
  deriving DecidableEq

structure FragmentationMetrics where
  totalAllocations : Nat := 0
  totalDeallocations : Nat := 0
  fragmentedSpace : Nat := 0

def FragmentationMetrics.recordDeallocation (self : FragmentationMetrics) (size : Nat) :
    FragmentationMetrics :=
  { self with
    totalDeallocations := Word64.add self.totalDeallocations 1
    fragmentedSpace := Word64.add self.fragmentedSpace size }

def FragmentationMetrics.shouldDefragment (self : FragmentationMetrics) : Bool :=
  self.fragmentedSpace > 1024 * 1024

structure MemoryPool where
  start : Nat
  size : Nat
  used : Nat
  optimizedFor : WorkloadType
  fragmentationMetrics : FragmentationMetrics

structure PoolAllocationInfo where
  poolIndex : Fin POOL_COUNT
  size : Nat

structure PageAllocationInfo where
  numPages : Nat

/-- A call of `std::memcpy`. -/
structure Copy where
  dest : Nat
  src : Nat
  size : Nat

end OptimizedUnifiedMemoryManager

open OptimizedUnifiedMemoryManager

/-- The manager. The page allocator, the frame pool and the moved bytes are
outside: the calls made on them are recorded in order. -/
structure OptimizedUnifiedMemoryManager where
  tlbCache : Fin TLB_SIZE → TLBEntry
  pools : Fin POOL_COUNT → MemoryPool
  pageTable : AList fun _ : Nat => Nat
  poolAllocations : AList fun _ : Nat => PoolAllocationInfo
  pageAllocations : AList fun _ : Nat => PageAllocationInfo
  totalMemory : Nat
  availableMemory : Nat
  freedFrames : List Nat
  freedPages : List (Nat × Nat)
  copies : List Copy

namespace OptimizedUnifiedMemoryManager

/-- What the code outside answers during one call of `allocateMemory`: the
detected workload, the address from `allocatePages` (0 for null) and the frame
that each call of `allocatePhysicalPage` returns. -/
structure Answers where
  workload : WorkloadType
  pages : Nat
  frame : Nat → Nat

def poolSize (index : Fin POOL_COUNT) : Nat := (![64, 256, 1024, 4096] index) * 1024

def poolWorkload (index : Fin POOL_COUNT) : WorkloadType :=
  ![.GAMING, .CREATIVE, .GENERAL, .HIGH_PERFORMANCE] index

/-- The pools over regions at the addresses that `allocatePages` returned. -/
def configureMemoryPools (starts : Fin POOL_COUNT → Nat) (index : Fin POOL_COUNT) : MemoryPool where
  start := starts index
  size := poolSize index
  used := 0
  optimizedFor := poolWorkload index
  fragmentationMetrics := {}

/-- The manager after `initialize()`, with the page counts that the page
allocator reports. -/
def initialized (starts : Fin POOL_COUNT → Nat) (totalPages availablePages : Nat) :
    OptimizedUnifiedMemoryManager where
  tlbCache := fun _ => ⟨0, 0, false⟩
  pools := configureMemoryPools starts
  pageTable := ∅
  poolAllocations := ∅
  pageAllocations := ∅
  totalMemory := Word64.mul totalPages PAGE_SIZE
  availableMemory := Word64.mul availablePages PAGE_SIZE
  freedFrames := []
  freedPages := []
  copies := []

/-- `(size + CACHE_LINE_SIZE - 1) & ~(CACHE_LINE_SIZE - 1)`, where the sum
wraps. -/
def alignSize (size : Nat) : Nat :=
  Word64.add size (CACHE_LINE_SIZE - 1) &&& (2 ^ 64 - CACHE_LINE_SIZE)

/-- The loop over the pools: the first one for the workload that has room takes
the request; one that has no room gets its counter back. -/
def allocateInPools (size : Nat) (workload : WorkloadType) :
    List (Fin POOL_COUNT) → (Fin POOL_COUNT → MemoryPool) →
      (Fin POOL_COUNT → MemoryPool) × Option (Fin POOL_COUNT × Nat)
  | [], pools => (pools, none)
  | index :: rest, pools =>
    let pool := pools index
    if pool.optimizedFor = workload ∧ pool.size ≥ size then
      let offset := pool.used
      let taken := { pool with used := Word64.add pool.used size }
      if Word64.add offset size ≤ pool.size then
        (Function.update pools index taken, some (index, Word64.add pool.start offset))
      else
        allocateInPools size workload rest
          (Function.update pools index { taken with used := Word64.sub taken.used size })
    else allocateInPools size workload rest pools

def tlbIndex (virtualAddr : Nat) : Fin TLB_SIZE :=
  ⟨virtualAddr % TLB_SIZE, Nat.mod_lt _ (by decide)⟩

def updateTLB (self : OptimizedUnifiedMemoryManager) (virtualAddr physicalAddr : Nat) :
    OptimizedUnifiedMemoryManager :=
  let index := tlbIndex virtualAddr
  { self with tlbCache := Function.update self.tlbCache index ⟨virtualAddr, physicalAddr, true⟩ }

def invalidateTLBEntry (self : OptimizedUnifiedMemoryManager) (virtualAddr : Nat) :
    OptimizedUnifiedMemoryManager :=
  let index := tlbIndex virtualAddr
  { self with tlbCache := Function.update self.tlbCache index { self.tlbCache index with valid := false } }

/-- The address of page `i` of an allocation. -/
def pageAddress (virtualAddr i : Nat) : Nat := Word64.add virtualAddr (Word64.mul i PAGE_SIZE)

/-- The body of the mapping loop. -/
def mapPage (self : OptimizedUnifiedMemoryManager) (vAddr pAddr : Nat) :
    OptimizedUnifiedMemoryManager :=
  { self with pageTable := self.pageTable.insert vAddr pAddr }.updateTLB vAddr pAddr

/-- The mapping loop of `allocateMemory`. -/
def mapPages (self : OptimizedUnifiedMemoryManager) (virtualAddr pages : Nat) (frame : Nat → Nat) :
    OptimizedUnifiedMemoryManager :=
  (List.range pages).foldl (fun self i => self.mapPage (pageAddress virtualAddr i) (frame i)) self

/-- The body of the unmapping loop. -/
def unmapPage (self : OptimizedUnifiedMemoryManager) (pageAddr : Nat) :
    OptimizedUnifiedMemoryManager :=
  let self := self.invalidateTLBEntry pageAddr
  match self.pageTable.lookup pageAddr with
  | some physPage =>
    { self with
      freedFrames := self.freedFrames ++ [physPage]
      pageTable := self.pageTable.erase pageAddr }
  | none => self

/-- The unmapping loop of `freeMemory`. -/
def unmapPages (self : OptimizedUnifiedMemoryManager) (vAddr numPages : Nat) :
    OptimizedUnifiedMemoryManager :=
  (List.range numPages).foldl (fun self i => self.unmapPage (pageAddress vAddr i)) self

/-- The page branch of `allocateMemory`, for a size already aligned. -/
def allocatePages (self : OptimizedUnifiedMemoryManager) (answers : Answers) (size : Nat) :
    OptimizedUnifiedMemoryManager × Nat :=
  let pages := Word64.add size (PAGE_SIZE - 1) / PAGE_SIZE
  let virtualAddr := answers.pages
  if virtualAddr = 0 then (self, 0)
  else
    let mapped := self.mapPages virtualAddr pages answers.frame
    ({ mapped with pageAllocations := mapped.pageAllocations.insert virtualAddr ⟨pages⟩ }, virtualAddr)

/-- `allocateMemory(size)`, with 0 for a null pointer. -/
def allocateMemory (self : OptimizedUnifiedMemoryManager) (answers : Answers) (size : Nat) :
    OptimizedUnifiedMemoryManager × Nat :=
  if size = 0 then (self, 0)
  else
    let size := alignSize size
    match allocateInPools size answers.workload (List.finRange POOL_COUNT) self.pools with
    | (pools, some (index, ptr)) =>
      ({ self with pools, poolAllocations := self.poolAllocations.insert ptr ⟨index, size⟩ }, ptr)
    | (pools, none) => { self with pools }.allocatePages answers size

/-- The live allocations of a pool, sorted as `std::sort` sorts pairs. -/
def liveAllocations (self : OptimizedUnifiedMemoryManager) (index : Fin POOL_COUNT) :
    List (Nat × Nat) :=
  ((self.poolAllocations.entries.filter fun e => e.2.poolIndex = index).map
    fun e => (e.1, e.2.size)).insertionSort fun a b => a.1 < b.1 ∨ a.1 = b.1 ∧ a.2 ≤ b.2

/-- The state of the compaction loop. -/
structure Compaction where
  poolAllocations : AList fun _ : Nat => PoolAllocationInfo
  dest : Nat
  copies : List Copy

/-- The body of the compaction loop, for one live allocation. -/
def Compaction.move (self : Compaction) (index : Fin POOL_COUNT) (allocation : Nat × Nat) :
    Compaction :=
  let (ptr, size) := allocation
  let moved : Compaction :=
    if ptr ≠ self.dest then
      { self with
        poolAllocations := (self.poolAllocations.insert self.dest ⟨index, size⟩).erase ptr
        copies := self.copies ++ [⟨self.dest, ptr, size⟩] }
    else self
  { moved with dest := Word64.add moved.dest size }

def compact (self : OptimizedUnifiedMemoryManager) (index : Fin POOL_COUNT) : Compaction :=
  (self.liveAllocations index).foldl (fun c allocation => c.move index allocation)
    ⟨self.poolAllocations, (self.pools index).start, []⟩

def defragmentPool (self : OptimizedUnifiedMemoryManager) (index : Fin POOL_COUNT) :
    OptimizedUnifiedMemoryManager :=
  let pool := self.pools index
  if !pool.fragmentationMetrics.shouldDefragment then self
  else
    let compaction := self.compact index
    { self with
      poolAllocations := compaction.poolAllocations
      pools := Function.update self.pools index
        { pool with
          fragmentationMetrics := {}
          used := Word64.sub compaction.dest pool.start }
      copies := self.copies ++ compaction.copies }

/-- The pool branch of `freeMemory`, up to the defragmentation. -/
def releaseBlock (self : OptimizedUnifiedMemoryManager) (ptr : Nat) (info : PoolAllocationInfo) :
    OptimizedUnifiedMemoryManager :=
  let pool := self.pools info.poolIndex
  { self with
    pools := Function.update self.pools info.poolIndex
      { pool with
        used := Word64.sub pool.used info.size
        fragmentationMetrics := pool.fragmentationMetrics.recordDeallocation info.size }
    poolAllocations := self.poolAllocations.erase ptr }

def freeMemory (self : OptimizedUnifiedMemoryManager) (ptr : Nat) :
    OptimizedUnifiedMemoryManager × Bool :=
  match self.poolAllocations.lookup ptr with
  | some info =>
    let released := self.releaseBlock ptr info
    if (released.pools info.poolIndex).fragmentationMetrics.shouldDefragment then
      (released.defragmentPool info.poolIndex, true)
    else (released, true)
  | none =>
    match self.pageAllocations.lookup ptr with
    | none => (self, false)
    | some ⟨numPages⟩ =>
      let unmapped := self.unmapPages ptr numPages
      ({ unmapped with
          freedPages := unmapped.freedPages ++ [(ptr, numPages)]
          pageAllocations := unmapped.pageAllocations.erase ptr
          availableMemory := Word64.add unmapped.availableMemory (Word64.mul numPages PAGE_SIZE) },
        true)

end OptimizedUnifiedMemoryManager

end Kernel.Memory
