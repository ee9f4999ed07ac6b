import KernelcModerne.Memory.PageTranslations

open Transition

namespace Kernel.Memory.OptimizedUnifiedMemoryManager

/-- The live allocations of each pool share no byte. -/
def LiveApart (manager : OptimizedUnifiedMemoryManager) : Prop :=
  ∀ index, (manager.liveAllocations index).Pairwise fun a b =>
    (Extent.mk a.1 a.2).Apart ⟨b.1, b.2⟩

instance (manager : OptimizedUnifiedMemoryManager) : Decidable manager.LiveApart :=
  inferInstanceAs (Decidable (∀ _, List.Pairwise _ _))

/-- After `freeMemory(ptr)` every other live pool pointer is registered as
before, and `freeMemory` accepts it. -/
def HandlesKept (manager : OptimizedUnifiedMemoryManager) (ptr : Nat) : Prop :=
  ∀ other info, other ≠ ptr → manager.poolAllocations.lookup other = some info →
    (manager.freeMemory ptr).1.poolAllocations.lookup other = some info ∧
      ((manager.freeMemory ptr).1.freeMemory other).2 = true

/-- The allocations follow each other without a gap from `dest` on. -/
def Packed : Nat → List (Nat × Nat) → Prop
  | _, [] => True
  | dest, (ptr, size) :: rest => ptr = dest ∧ Packed (Word64.add dest size) rest

/-- The live allocations of a pool without the one at `ptr`. -/
def survivors (manager : OptimizedUnifiedMemoryManager) (ptr : Nat) (index : Fin POOL_COUNT) :
    List (Nat × Nat) :=
  { manager with poolAllocations := manager.poolAllocations.erase ptr }.liveAllocations index

/-- Freeing the block stays within the MiB that a pool may lose before it is
defragmented, or leaves the pool without a gap. -/
def FreesInPlace (manager : OptimizedUnifiedMemoryManager) (ptr : Nat) (info : PoolAllocationInfo) :
    Prop :=
  let pool := manager.pools info.poolIndex
  Word64.add pool.fragmentationMetrics.fragmentedSpace info.size ≤ 1024 * 1024 ∨
    Packed pool.start (manager.survivors ptr info.poolIndex)

theorem freeMemory_of_lookup {manager : OptimizedUnifiedMemoryManager} {ptr : Nat}
    {info : PoolAllocationInfo} (hlookup : manager.poolAllocations.lookup ptr = some info) :
    (manager.freeMemory ptr).2 = true := by
  simp only [freeMemory, hlookup]
  split <;> rfl

/-- Blocks that are packed already are not moved. -/
theorem Packed.foldl_move {index : Fin POOL_COUNT} (allocations : List (Nat × Nat)) {c : Compaction}
    (h : Packed c.dest allocations) :
    (allocations.foldl (fun c allocation => c.move index allocation) c).poolAllocations =
      c.poolAllocations := by
  induction allocations generalizing c with
  | nil => rfl
  | cons allocation rest ih =>
    obtain ⟨ptr, size⟩ := allocation
    obtain ⟨hptr, hrest⟩ := h
    rw [← c.move_dest index ptr size] at hrest
    rw [List.foldl_cons, ih hrest, Compaction.move_of_eq hptr]

/-- Of blocks that are not packed, the last one to be moved loses its address. -/
theorem exists_lost_of_not_packed (index : Fin POOL_COUNT) (allocations : List (Nat × Nat))
    (c : Compaction) (h : ¬ Packed c.dest allocations) :
    ∃ allocation ∈ allocations,
      (allocations.foldl (fun c allocation => c.move index allocation) c).poolAllocations.lookup
        allocation.1 = none := by
  induction allocations generalizing c with
  | nil => exact absurd trivial h
  | cons allocation rest ih =>
    obtain ⟨ptr, size⟩ := allocation
    rw [List.foldl_cons]
    by_cases hrest : Packed (c.move index (ptr, size)).dest rest
    · have hptr : ptr ≠ c.dest := by
        intro heq
        rw [c.move_dest] at hrest
        exact h ⟨heq, hrest⟩
      refine ⟨(ptr, size), List.mem_cons_self, ?_⟩
      rw [hrest.foldl_move, Compaction.move_of_ne hptr]
      exact AList.lookup_erase _ _
    · obtain ⟨lost, hlost, hnone⟩ := ih _ hrest
      exact ⟨lost, List.mem_cons_of_mem _ hlost, hnone⟩

variable {manager : OptimizedUnifiedMemoryManager} {ptr : Nat} {info : PoolAllocationInfo}

/-- The registrations after a pool block is freed. -/
theorem freeMemory_poolAllocations (hlookup : manager.poolAllocations.lookup ptr = some info) :
    (manager.freeMemory ptr).1.poolAllocations =
      if Word64.add (manager.pools info.poolIndex).fragmentationMetrics.fragmentedSpace info.size ≤
          1024 * 1024 then manager.poolAllocations.erase ptr
      else ((manager.releaseBlock ptr info).compact info.poolIndex).poolAllocations := by
  have hshould : ((manager.releaseBlock ptr info).pools
      info.poolIndex).fragmentationMetrics.shouldDefragment =
        decide (Word64.add (manager.pools info.poolIndex).fragmentationMetrics.fragmentedSpace
          info.size > 1024 * 1024) := by
    simp [releaseBlock, FragmentationMetrics.shouldDefragment, FragmentationMetrics.recordDeallocation]
  simp only [freeMemory, hlookup, defragmentPool, hshould]
  by_cases hlimit : Word64.add (manager.pools info.poolIndex).fragmentationMetrics.fragmentedSpace
      info.size ≤ 1024 * 1024
  · simp [hlimit, releaseBlock]
  · have hover := Nat.lt_of_not_le hlimit
    simp [hlimit, hover]

theorem lookup_of_mem_survivors {index : Fin POOL_COUNT} {allocation : Nat × Nat}
    (hmem : allocation ∈ manager.survivors ptr index) :
    allocation.1 ≠ ptr ∧ manager.poolAllocations.lookup allocation.1 = some ⟨index, allocation.2⟩ := by
  have hlookup := mem_liveAllocations.mp hmem
  have hne : allocation.1 ≠ ptr := by
    intro heq
    rw [heq, AList.lookup_erase] at hlookup
    cases hlookup
  rw [AList.lookup_erase_ne hne] at hlookup
  exact ⟨hne, hlookup⟩

/-- Where the free only takes its own block out of the table, the others stay. -/
theorem handlesKept_of_erase (h : (manager.freeMemory ptr).1.poolAllocations = manager.poolAllocations.erase ptr) :
    manager.HandlesKept ptr := by
  intro other otherInfo hne hother
  have hafter : (manager.freeMemory ptr).1.poolAllocations.lookup other = some otherInfo := by
    rw [h, AList.lookup_erase_ne hne]
    exact hother
  exact ⟨hafter, freeMemory_of_lookup hafter⟩

/-- The compaction goes through the surviving blocks, from the table without
`ptr` and the start of the pool on. -/
theorem compact_releaseBlock (manager : OptimizedUnifiedMemoryManager) (ptr : Nat) (info : PoolAllocationInfo) :
    (manager.releaseBlock ptr info).compact info.poolIndex =
      (manager.survivors ptr info.poolIndex).foldl (fun c allocation => c.move info.poolIndex allocation)
        ⟨manager.poolAllocations.erase ptr, (manager.pools info.poolIndex).start, []⟩ := by
  have hstart : ((manager.releaseBlock ptr info).pools info.poolIndex).start =
      (manager.pools info.poolIndex).start := by
    simp [releaseBlock]
  rw [compact, hstart]
  rfl

/-- Freeing a pool block leaves the other pointers registered exactly when it
moves no block. -/
theorem handlesKept_iff (hlookup : manager.poolAllocations.lookup ptr = some info) :
    manager.HandlesKept ptr ↔ manager.FreesInPlace ptr info := by
  have htable := freeMemory_poolAllocations hlookup
  by_cases hlimit : Word64.add (manager.pools info.poolIndex).fragmentationMetrics.fragmentedSpace
      info.size ≤ 1024 * 1024
  · rw [if_pos hlimit] at htable
    exact iff_of_true (handlesKept_of_erase htable) (.inl hlimit)
  · rw [if_neg hlimit, compact_releaseBlock] at htable
    constructor
    · intro hall
      by_cases hpacked : Packed (manager.pools info.poolIndex).start
          (manager.survivors ptr info.poolIndex)
      · exact .inr hpacked
      · obtain ⟨lost, hmem, hnone⟩ := exists_lost_of_not_packed info.poolIndex _
          ⟨manager.poolAllocations.erase ptr, (manager.pools info.poolIndex).start, []⟩ hpacked
        obtain ⟨hne, hlive⟩ := lookup_of_mem_survivors hmem
        have hafter := (hall _ _ hne hlive).1
        rw [htable, hnone] at hafter
        cases hafter
    · intro hplace
      cases hplace with
      | inl hle => exact absurd hle hlimit
      | inr hpacked => exact handlesKept_of_erase (htable.trans (Packed.foldl_move _ hpacked))

/-- Two blocks of the pool of four MiB, the first of more than one MiB. -/
def blockAboveMiB : OptimizedUnifiedMemoryManager :=
  let first := (initialized Client.spreadLayout.start 0 0).allocateMemory
    ⟨.HIGH_PERFORMANCE, 0, fun _ => 0⟩ 0x100040
  (first.1.allocateMemory ⟨.HIGH_PERFORMANCE, 0, fun _ => 0⟩ 64).1

theorem handlesKept_iff_blockAboveMiB :
    blockAboveMiB.HandlesKept 0x2000000 ↔ blockAboveMiB.FreesInPlace 0x2000000 ⟨3, 0x100040⟩ :=
  handlesKept_iff rfl

/-- Freeing the first block moves the second one, whose owner's pointer is then
unknown. -/
theorem freed_block_moves_neighbour :
    ¬ ∀ manager : OptimizedUnifiedMemoryManager, manager.LiveApart →
      ∀ ptr, (∃ info, manager.poolAllocations.lookup ptr = some info) → manager.HandlesKept ptr := by
  intro hall
  have hapart : blockAboveMiB.LiveApart := by decide
  have hkept := hall blockAboveMiB hapart 0x2000000 ⟨⟨3, 0x100040⟩, rfl⟩
  have hafter := (hkept 0x2100040 ⟨3, 64⟩ (by decide) rfl).2
  exact absurd hafter (by decide)

end Kernel.Memory.OptimizedUnifiedMemoryManager
