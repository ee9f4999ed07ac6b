import KernelcModerne.Lib.AListTotal
import KernelcModerne.Memory.MemoryManager

namespace Kernel.Memory.OptimizedUnifiedMemoryManager

theorem poolSize_le (index : Fin POOL_COUNT) : poolSize index ≤ 4194304 := by
  revert index
  decide

theorem poolWorkload_injective : Function.Injective poolWorkload := by
  unfold Function.Injective
  decide

/-- The size that an entry of the table contributes to pool `index`. -/
def sizeIn (index : Fin POOL_COUNT) (info : PoolAllocationInfo) : Nat :=
  if info.poolIndex = index then info.size else 0

@[simp] theorem sizeIn_self (index : Fin POOL_COUNT) (size : Nat) :
    sizeIn index ⟨index, size⟩ = size := if_pos rfl

theorem sizeIn_of_ne {index : Fin POOL_COUNT} {info : PoolAllocationInfo}
    (h : info.poolIndex ≠ index) : sizeIn index info = 0 := if_neg h

/-- The sum of the sizes recorded for pool `index`. -/
def poolTotal (allocations : AList fun _ : Nat => PoolAllocationInfo) (index : Fin POOL_COUNT) : Nat :=
  allocations.total fun _ info => sizeIn index info

theorem poolTotal_insert_le (allocations : AList fun _ : Nat => PoolAllocationInfo)
    (index : Fin POOL_COUNT) (ptr : Nat) (info : PoolAllocationInfo) :
    poolTotal (allocations.insert ptr info) index ≤ sizeIn index info + poolTotal allocations index := by
  rw [poolTotal, AList.total_insert]
  exact Nat.add_le_add_left (AList.total_erase_le _ _ _) _

/-- Each pool keeps its region and its workload, the sizes recorded for it add up to at most
`used`, and `used` stays within the pool. -/
structure Accounted (starts : Fin POOL_COUNT → Nat) (manager : OptimizedUnifiedMemoryManager) :
    Prop where
  start : ∀ index, (manager.pools index).start = starts index
  size : ∀ index, (manager.pools index).size = poolSize index
  optimizedFor : ∀ index, (manager.pools index).optimizedFor = poolWorkload index
  total_le : ∀ index, poolTotal manager.poolAllocations index ≤ (manager.pools index).used
  used_le : ∀ index, (manager.pools index).used ≤ poolSize index

variable {starts : Fin POOL_COUNT → Nat}

theorem initialized_accounted (starts : Fin POOL_COUNT → Nat) (totalPages availablePages : Nat) :
    (initialized starts totalPages availablePages).Accounted starts where
  start _ := rfl
  size _ := rfl
  optimizedFor _ := rfl
  total_le _ := Nat.le_refl 0
  used_le _ := Nat.zero_le _

theorem Accounted.used_lt {manager : OptimizedUnifiedMemoryManager} (h : manager.Accounted starts)
    (index : Fin POOL_COUNT) : (manager.pools index).used ≤ 4194304 :=
  (h.used_le index).trans (poolSize_le index)

/-- The tests that let the pool loop stop at a pool. -/
def MemoryPool.Serves (pool : MemoryPool) (workload : WorkloadType) (size : Nat) : Prop :=
  pool.optimizedFor = workload ∧ size ≤ pool.size ∧ Word64.add pool.used size ≤ pool.size

instance (pool : MemoryPool) (workload : WorkloadType) (size : Nat) :
    Decidable (pool.Serves workload size) :=
  inferInstanceAs (Decidable (_ ∧ _ ∧ _))

/-- The pool loop takes the request out of one pool that serves it, at the
counter, or no pool serves it and it leaves all of them as they were. -/
theorem allocateInPools_spec (size : Nat) (workload : WorkloadType)
    {pools : Fin POOL_COUNT → MemoryPool} (hused : ∀ index, (pools index).used < 2 ^ 64)
    (order : List (Fin POOL_COUNT)) :
    ((∀ index ∈ order, ¬ (pools index).Serves workload size) ∧
      allocateInPools size workload order pools = (pools, none)) ∨
      ∃ index, (pools index).Serves workload size ∧
        allocateInPools size workload order pools =
          (Function.update pools index
            { pools index with used := Word64.add (pools index).used size },
            some (index, Word64.add (pools index).start (pools index).used)) := by
  induction order with
  | nil => exact .inl ⟨fun _ h => absurd h List.not_mem_nil, rfl⟩
  | cons index rest ih =>
    have hrest (hnot : ¬ (pools index).Serves workload size) :
        ((∀ i ∈ rest, ¬ (pools i).Serves workload size) ∧
          allocateInPools size workload rest pools = (pools, none)) →
        (∀ i ∈ index :: rest, ¬ (pools i).Serves workload size) ∧
          allocateInPools size workload rest pools = (pools, none) :=
      fun h => ⟨List.forall_mem_cons.mpr ⟨hnot, h.1⟩, h.2⟩
    simp only [allocateInPools]
    by_cases hmatch : (pools index).optimizedFor = workload ∧ (pools index).size ≥ size
    · rw [if_pos hmatch]
      by_cases hroom : Word64.add (pools index).used size ≤ (pools index).size
      · rw [if_pos hroom]
        exact .inr ⟨index, ⟨hmatch.1, hmatch.2, hroom⟩, rfl⟩
      · rw [if_neg hroom, Word64.sub_add_cancel_right (hused index), Function.update_eq_self]
        exact ih.imp_left (hrest fun h => hroom h.2.2)
    · rw [if_neg hmatch]
      exact ih.imp_left (hrest fun h => hmatch ⟨h.1, h.2.1⟩)

/-- The pool whose block `allocateMemory` answers, if it answers one. -/
def poolFor (manager : OptimizedUnifiedMemoryManager) (answers : Answers) (size : Nat) :
    Option (Fin POOL_COUNT) :=
  if size = 0 then none
  else
    (allocateInPools (alignSize size) answers.workload (List.finRange POOL_COUNT) manager.pools).2.map
      Prod.fst

/-- The mapping loop changes the page table and the TLB only. -/
theorem mapPages_frame (manager : OptimizedUnifiedMemoryManager) (virtualAddr pages : Nat)
    (frame : Nat → Nat) : ∃ pageTable tlbCache,
      manager.mapPages virtualAddr pages frame = { manager with pageTable, tlbCache } := by
  unfold mapPages
  refine List.foldlRecOn (motive := fun after : OptimizedUnifiedMemoryManager =>
    ∃ pageTable tlbCache, after = { manager with pageTable, tlbCache }) _ _ ⟨_, _, rfl⟩ ?_
  rintro _ ⟨pageTable, tlbCache, rfl⟩ i _
  exact ⟨_, _, rfl⟩

/-- The unmapping loop changes these and the frames that are freed. -/
theorem unmapPages_frame (manager : OptimizedUnifiedMemoryManager) (vAddr numPages : Nat) :
    ∃ pageTable tlbCache freedFrames,
      manager.unmapPages vAddr numPages = { manager with pageTable, tlbCache, freedFrames } := by
  unfold unmapPages
  refine List.foldlRecOn (motive := fun after : OptimizedUnifiedMemoryManager =>
    ∃ pageTable tlbCache freedFrames, after = { manager with pageTable, tlbCache, freedFrames }) _ _
    ⟨_, _, _, rfl⟩ ?_
  rintro _ ⟨pageTable, tlbCache, freedFrames, rfl⟩ i _
  simp only [unmapPage]
  split <;> exact ⟨_, _, _, rfl⟩

theorem allocatePages_frame (manager : OptimizedUnifiedMemoryManager) (answers : Answers) (size : Nat) :
    (manager.allocatePages answers size).1.pools = manager.pools ∧
      (manager.allocatePages answers size).1.poolAllocations = manager.poolAllocations := by
  simp only [allocatePages]
  split
  · exact ⟨rfl, rfl⟩
  · obtain ⟨_, _, hmapped⟩ := manager.mapPages_frame answers.pages
      (Word64.add size (PAGE_SIZE - 1) / PAGE_SIZE) answers.frame
    rw [hmapped]
    exact ⟨rfl, rfl⟩

theorem Accounted.of_pools {manager after : OptimizedUnifiedMemoryManager}
    (h : manager.Accounted starts) (hpools : after.pools = manager.pools)
    (hallocations : after.poolAllocations = manager.poolAllocations) : after.Accounted starts where
  start := hpools ▸ h.start
  size := hpools ▸ h.size
  optimizedFor := hpools ▸ h.optimizedFor
  total_le := hpools ▸ hallocations ▸ h.total_le
  used_le := hpools ▸ h.used_le

/-- A change of one pool and of the table that keeps the accounts. -/
theorem Accounted.of_update {manager after : OptimizedUnifiedMemoryManager} (h : manager.Accounted starts)
    {index : Fin POOL_COUNT} {pool : MemoryPool}
    (hpools : after.pools = Function.update manager.pools index pool)
    (hstart : pool.start = (manager.pools index).start) (hsize : pool.size = (manager.pools index).size)
    (hworkload : pool.optimizedFor = (manager.pools index).optimizedFor)
    (htotal : poolTotal after.poolAllocations index ≤ pool.used) (hused : pool.used ≤ poolSize index)
    (hothers : ∀ other, other ≠ index →
      poolTotal after.poolAllocations other ≤ poolTotal manager.poolAllocations other) :
    after.Accounted starts := by
  have hself : after.pools index = pool := by rw [hpools, Function.update_self]
  have hother {other : Fin POOL_COUNT} (hne : other ≠ index) : after.pools other = manager.pools other := by
    rw [hpools, Function.update_of_ne hne]
  constructor <;> intro other <;> by_cases hne : other = index
  · rw [hne, hself, hstart, h.start]
  · rw [hother hne, h.start]
  · rw [hne, hself, hsize, h.size]
  · rw [hother hne, h.size]
  · rw [hne, hself, hworkload, h.optimizedFor]
  · rw [hother hne, h.optimizedFor]
  · rw [hne, hself]
    exact htotal
  · rw [hother hne]
    exact (hothers other hne).trans (h.total_le other)
  · rw [hne, hself]
    exact hused
  · rw [hother hne]
    exact h.used_le other

/-- What a served request takes: the bytes from the counter on. -/
theorem Accounted.used_add {manager : OptimizedUnifiedMemoryManager} (h : manager.Accounted starts)
    {index : Fin POOL_COUNT} {workload : WorkloadType} {size : Nat}
    (hserves : (manager.pools index).Serves workload size) :
    Word64.add (manager.pools index).used size = (manager.pools index).used + size ∧
      (manager.pools index).used + size ≤ poolSize index := by
  obtain ⟨_, hsize, hroom⟩ := hserves
  have hused := h.used_lt index
  have hbound := poolSize_le index
  rw [h.size] at hsize hroom
  have hadd : Word64.add (manager.pools index).used size = (manager.pools index).used + size :=
    Word64.add_eq_of_lt (by omega)
  exact ⟨hadd, hadd ▸ hroom⟩

/-- The pool that serves a request is unique. -/
theorem Accounted.serves_unique {manager : OptimizedUnifiedMemoryManager} (h : manager.Accounted starts)
    {index other : Fin POOL_COUNT} {workload : WorkloadType} {size : Nat}
    (hindex : (manager.pools index).Serves workload size)
    (hother : (manager.pools other).Serves workload size) : index = other := by
  apply poolWorkload_injective
  rw [← h.optimizedFor, ← h.optimizedFor, hindex.1, hother.1]

/-- What `allocateMemory` does to the pools: it answers a block at the counter
of the pool that serves the request and records it, or no pool serves the
request and it leaves pools and table alone. -/
theorem Accounted.allocateMemory_cases {manager : OptimizedUnifiedMemoryManager}
    (h : manager.Accounted starts) (answers : Answers) {size : Nat} (hsize : size ≠ 0) :
    (∃ index, (manager.pools index).Serves answers.workload (alignSize size) ∧
      manager.poolFor answers size = some index ∧
      manager.allocateMemory answers size =
        ({ manager with
            pools := Function.update manager.pools index
              { manager.pools index with used := (manager.pools index).used + alignSize size }
            poolAllocations := manager.poolAllocations.insert
              (Word64.add (starts index) (manager.pools index).used) ⟨index, alignSize size⟩ },
          Word64.add (starts index) (manager.pools index).used)) ∨
    (∀ index, ¬ (manager.pools index).Serves answers.workload (alignSize size)) ∧
      manager.poolFor answers size = none ∧
      (manager.allocateMemory answers size).1.pools = manager.pools ∧
      (manager.allocateMemory answers size).1.poolAllocations = manager.poolAllocations := by
  have hused (index : Fin POOL_COUNT) : (manager.pools index).used < 2 ^ 64 := by
    have := h.used_lt index
    omega
  cases allocateInPools_spec (alignSize size) answers.workload hused (List.finRange POOL_COUNT) with
  | inl hunserved =>
    obtain ⟨hnot, hnone⟩ := hunserved
    refine .inr ⟨fun index => hnot index (List.mem_finRange index), ?_, ?_⟩
    · simp only [poolFor, if_neg hsize, hnone, Option.map_none]
    · simp only [OptimizedUnifiedMemoryManager.allocateMemory, if_neg hsize, hnone]
      exact allocatePages_frame manager answers _
  | inr hserved =>
    obtain ⟨index, hserves, hgrant⟩ := hserved
    rw [(h.used_add hserves).1, h.start] at hgrant
    refine .inl ⟨index, hserves, ?_, ?_⟩
    · simp only [poolFor, if_neg hsize, hgrant, Option.map_some]
    · simp only [OptimizedUnifiedMemoryManager.allocateMemory, if_neg hsize, hgrant]

theorem Accounted.allocateMemory {manager : OptimizedUnifiedMemoryManager}
    (h : manager.Accounted starts) (answers : Answers) (size : Nat) :
    (manager.allocateMemory answers size).1.Accounted starts := by
  by_cases hsize : size = 0
  · simpa [OptimizedUnifiedMemoryManager.allocateMemory, hsize] using h
  · cases h.allocateMemory_cases answers hsize with
    | inr hunserved =>
      obtain ⟨_, _, hpools, hallocations⟩ := hunserved
      exact h.of_pools hpools hallocations
    | inl hserved =>
      obtain ⟨index, hserves, _, hafter⟩ := hserved
      rw [hafter]
      have hinsert (other : Fin POOL_COUNT) := poolTotal_insert_le manager.poolAllocations other
        (Word64.add (starts index) (manager.pools index).used) ⟨index, alignSize size⟩
      refine h.of_update rfl rfl rfl rfl ?_ (h.used_add hserves).2 ?_
      · have hself := hinsert index
        have htotal := h.total_le index
        rw [sizeIn_self] at hself
        simp only
        omega
      · intro other hother
        have hle := hinsert other
        rwa [sizeIn_of_ne (Ne.symm hother), Nat.zero_add] at hle

end Kernel.Memory.OptimizedUnifiedMemoryManager
