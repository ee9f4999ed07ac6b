import KernelcModerne.Memory.PoolRuns

namespace Kernel.Memory.OptimizedUnifiedMemoryManager

/-- The first pool that serves the request. -/
def servingPool (manager : OptimizedUnifiedMemoryManager) (answers : Answers) (size : Nat) :
    Option (Fin POOL_COUNT) :=
  (List.finRange POOL_COUNT).find? fun index => (manager.pools index).Serves answers.workload (alignSize size)

/-- The bytes recorded for the allocation at `ptr`, which a pool has served or,
with `none`, the page allocator. -/
def recordedSize (manager : OptimizedUnifiedMemoryManager) (served : Option (Fin POOL_COUNT)) (ptr : Nat) :
    Nat :=
  match served with
  | some _ => ((manager.poolAllocations.lookup ptr).map PoolAllocationInfo.size).getD 0
  | none => PAGE_SIZE * ((manager.pageAllocations.lookup ptr).map PageAllocationInfo.numPages).getD 0

/-- An allocation that is answered is recorded with at least the bytes asked
for. -/
def RecordsEnough (manager : OptimizedUnifiedMemoryManager) (answers : Answers) (size : Nat) : Prop :=
  (manager.allocateMemory answers size).2 ≠ 0 →
    size ≤ (manager.allocateMemory answers size).1.recordedSize (manager.servingPool answers size)
      (manager.allocateMemory answers size).2

instance (manager : OptimizedUnifiedMemoryManager) (answers : Answers) (size : Nat) :
    Decidable (manager.RecordsEnough answers size) :=
  inferInstanceAs (Decidable ((manager.allocateMemory answers size).2 ≠ 0 → _))

/-- The memory that would be answered is at null, or the size is rounded up
without wrapping: to cache lines for a pool, and to pages without one. -/
def RoundsUp (manager : OptimizedUnifiedMemoryManager) (answers : Answers) (size : Nat) : Prop :=
  match manager.servingPool answers size with
  | some index =>
    Word64.add (manager.pools index).start (manager.pools index).used = 0 ∨
      size + (CACHE_LINE_SIZE - 1) < 2 ^ 64
  | none => answers.pages = 0 ∨ size + (PAGE_SIZE - 1) < 2 ^ 64

/-- A size that wraps leaves less than a cache line, which is cut off. -/
theorem alignSize_of_wraps {size : Nat} (hwraps : 2 ^ 64 ≤ size + (CACHE_LINE_SIZE - 1))
    (hsize : size < 2 ^ 64) : alignSize size = 0 := by
  have hmask : 2 ^ 64 - CACHE_LINE_SIZE = (2 ^ 58 - 1) * 2 ^ 6 := by decide
  have hsum : Word64.add size (CACHE_LINE_SIZE - 1) < 2 ^ 6 := by
    unfold Word64.add CACHE_LINE_SIZE at *
    omega
  rw [alignSize, hmask]
  apply Nat.eq_of_testBit_eq
  intro i
  rw [Nat.testBit_and, Nat.testBit_mul_two_pow, Nat.zero_testBit]
  by_cases hlow : 6 ≤ i
  · have hclear := Nat.testBit_lt_two_pow (hsum.trans_le (Nat.pow_le_pow_right (by decide) hlow))
    rw [hclear, Bool.false_and]
  · simp [hlow]

/-- The pages for a size that is rounded up to cache lines first. -/
theorem le_pages {size : Nat} (hsize : size + (PAGE_SIZE - 1) < 2 ^ 64) :
    size ≤ PAGE_SIZE * (Word64.add (alignSize size) (PAGE_SIZE - 1) / PAGE_SIZE) := by
  have hline : size + (CACHE_LINE_SIZE - 1) < 2 ^ 64 := by
    unfold CACHE_LINE_SIZE
    unfold PAGE_SIZE at hsize
    omega
  have halign := alignSize_eq hline
  unfold CACHE_LINE_SIZE PAGE_SIZE at *
  rw [Word64.add_eq_of_lt (by omega), halign]
  omega

theorem pages_of_wraps {size : Nat} (hwraps : 2 ^ 64 ≤ size + (PAGE_SIZE - 1)) (hsize : size < 2 ^ 64) :
    Word64.add (alignSize size) (PAGE_SIZE - 1) / PAGE_SIZE = 0 := by
  by_cases hline : size + (CACHE_LINE_SIZE - 1) < 2 ^ 64
  · have halign := alignSize_eq hline
    unfold Word64.add CACHE_LINE_SIZE PAGE_SIZE at *
    omega
  · rw [alignSize_of_wraps (by omega) hsize]
    rfl

/-- The loop over the pools answers the counter of the first pool that serves
the request. The pools passed by are those of `order` no more. -/
theorem allocateInPools_answer (size : Nat) (workload : WorkloadType) {order : List (Fin POOL_COUNT)}
    (hnodup : order.Nodup) {pools current : Fin POOL_COUNT → MemoryPool}
    (hcurrent : ∀ index ∈ order, current index = pools index) :
    (allocateInPools size workload order current).2 =
      (order.find? fun index => (pools index).Serves workload size).map fun index =>
        (index, Word64.add (pools index).start (pools index).used) := by
  induction order generalizing current with
  | nil => rfl
  | cons index rest ih =>
    obtain ⟨hnew, hrest⟩ := List.nodup_cons.mp hnodup
    have hindex := hcurrent index List.mem_cons_self
    have hsame : ∀ other ∈ rest, current other = pools other :=
      fun other hother => hcurrent other (List.mem_cons_of_mem _ hother)
    have hupdate (pool : MemoryPool) :
        ∀ other ∈ rest, Function.update current index pool other = pools other := by
      intro other hother
      have hne : other ≠ index := by
        rintro rfl
        exact hnew hother
      rw [Function.update_of_ne hne, hsame other hother]
    simp only [allocateInPools, hindex]
    by_cases hmatch : (pools index).optimizedFor = workload ∧ (pools index).size ≥ size
    · by_cases hroom : Word64.add (pools index).used size ≤ (pools index).size
      · have hserves : (pools index).Serves workload size := ⟨hmatch.1, hmatch.2, hroom⟩
        rw [if_pos hmatch, if_pos hroom, List.find?_cons_of_pos (by simpa using hserves)]
        rfl
      · have hserves : ¬ (pools index).Serves workload size := fun h => hroom h.2.2
        rw [if_pos hmatch, if_neg hroom, List.find?_cons_of_neg (by simpa using hserves)]
        exact ih hrest (hupdate _)
    · have hserves : ¬ (pools index).Serves workload size := fun h => hmatch ⟨h.1, h.2.1⟩
      rw [if_neg hmatch, List.find?_cons_of_neg (by simpa using hserves)]
      exact ih hrest hsame

theorem allocateInPools_servingPool (manager : OptimizedUnifiedMemoryManager) (answers : Answers) (size : Nat) :
    (allocateInPools (alignSize size) answers.workload (List.finRange POOL_COUNT) manager.pools).2 =
      (manager.servingPool answers size).map fun index =>
        (index, Word64.add (manager.pools index).start (manager.pools index).used) :=
  allocateInPools_answer (alignSize size) answers.workload (List.nodup_finRange POOL_COUNT) fun _ _ => rfl

/-- A pool's block is recorded with the size rounded up to cache lines. -/
theorem allocateMemory_of_served {manager : OptimizedUnifiedMemoryManager} {answers : Answers} {size : Nat}
    (hsize : size ≠ 0) {index : Fin POOL_COUNT} (hserved : manager.servingPool answers size = some index) :
    ∃ pools, manager.allocateMemory answers size =
      ({ manager with
          pools
          poolAllocations := manager.poolAllocations.insert
            (Word64.add (manager.pools index).start (manager.pools index).used) ⟨index, alignSize size⟩ },
        Word64.add (manager.pools index).start (manager.pools index).used) := by
  have hanswer := manager.allocateInPools_servingPool answers size
  rw [hserved, Option.map_some] at hanswer
  cases hrun : allocateInPools (alignSize size) answers.workload (List.finRange POOL_COUNT) manager.pools with
  | mk pools answer =>
    rw [hrun] at hanswer
    obtain rfl : answer = _ := hanswer
    exact ⟨pools, by simp only [allocateMemory, if_neg hsize, hrun]⟩

theorem allocateMemory_of_unserved {manager : OptimizedUnifiedMemoryManager} {answers : Answers} {size : Nat}
    (hsize : size ≠ 0) (hserved : manager.servingPool answers size = none) :
    ∃ pools, manager.allocateMemory answers size =
      { manager with pools }.allocatePages answers (alignSize size) := by
  have hanswer := manager.allocateInPools_servingPool answers size
  rw [hserved, Option.map_none] at hanswer
  cases hrun : allocateInPools (alignSize size) answers.workload (List.finRange POOL_COUNT) manager.pools with
  | mk pools answer =>
    rw [hrun] at hanswer
    obtain rfl : answer = _ := hanswer
    exact ⟨pools, by simp only [allocateMemory, if_neg hsize, hrun]⟩

theorem allocatePages_of_ne (manager : OptimizedUnifiedMemoryManager) {answers : Answers}
    (hne : answers.pages ≠ 0) (size : Nat) : ∃ mapped : OptimizedUnifiedMemoryManager, manager.allocatePages answers size =
      ({ mapped with
          pageAllocations := mapped.pageAllocations.insert answers.pages
            ⟨Word64.add size (PAGE_SIZE - 1) / PAGE_SIZE⟩ },
        answers.pages) :=
  ⟨_, if_neg hne⟩

theorem recordsEnough_of_served {manager : OptimizedUnifiedMemoryManager} {answers : Answers} {size : Nat}
    (hsize : size ≠ 0) {index : Fin POOL_COUNT} (hserved : manager.servingPool answers size = some index) :
    manager.RecordsEnough answers size ↔
      (Word64.add (manager.pools index).start (manager.pools index).used ≠ 0 → size ≤ alignSize size) := by
  obtain ⟨pools, hafter⟩ := allocateMemory_of_served hsize hserved
  rw [RecordsEnough, hafter, hserved]
  simp only [recordedSize, AList.lookup_insert, Option.map_some, Option.getD_some]

/-- An allocation of pages is recorded with the pages that the size is rounded
up to. -/
theorem recordsEnough_of_unserved {manager : OptimizedUnifiedMemoryManager} {answers : Answers} {size : Nat}
    (hsize : size ≠ 0) (hserved : manager.servingPool answers size = none) :
    manager.RecordsEnough answers size ↔
      (answers.pages ≠ 0 → size ≤ PAGE_SIZE * (Word64.add (alignSize size) (PAGE_SIZE - 1) / PAGE_SIZE)) := by
  obtain ⟨pools, hafter⟩ := allocateMemory_of_unserved hsize hserved
  by_cases hnull : answers.pages = 0
  · rw [RecordsEnough, hafter]
    simp [allocatePages, hnull]
  · obtain ⟨mapped, hpages⟩ := allocatePages_of_ne { manager with pools } hnull (alignSize size)
    rw [RecordsEnough, hafter.trans hpages, hserved]
    simp only [recordedSize, AList.lookup_insert, Option.map_some, Option.getD_some]

/-- In every state an allocation is recorded with at least the bytes asked for
exactly when the size is rounded up without wrapping, or null is answered. -/
theorem recordsEnough_iff (manager : OptimizedUnifiedMemoryManager) (answers : Answers) (size : UInt64) :
    manager.RecordsEnough answers size.toNat ↔ manager.RoundsUp answers size.toNat := by
  have hbound := size.toNat_lt
  unfold RoundsUp
  by_cases hsize : size.toNat = 0
  · have hnull : (manager.allocateMemory answers size.toNat).2 = 0 := by simp [allocateMemory, hsize]
    refine iff_of_true (fun hne => absurd hnull hne) ?_
    split
    · exact .inr (by rw [hsize]; decide)
    · exact .inr (by rw [hsize]; decide)
  · cases hserved : manager.servingPool answers size.toNat with
    | some index =>
      rw [recordsEnough_of_served hsize hserved, ← or_iff_not_imp_left]
      refine or_congr_right ⟨fun hle => ?_, le_alignSize⟩
      by_contra hwraps
      rw [alignSize_of_wraps (by omega) hbound] at hle
      omega
    | none =>
      rw [recordsEnough_of_unserved hsize hserved, ← or_iff_not_imp_left]
      refine or_congr_right ⟨fun hle => ?_, le_pages⟩
      by_contra hwraps
      rw [pages_of_wraps (by omega) hbound] at hle
      omega

/-- The pool for games answers all of the address space but a byte with a block
of no bytes. -/
theorem allocated_without_bytes :
    ¬ ∀ (manager : OptimizedUnifiedMemoryManager) (answers : Answers) (size : UInt64), 0 < size →
      manager.RecordsEnough answers size.toNat := by
  intro hall
  have hrecorded := hall (initialized Client.spreadLayout.start 0 0) ⟨.GAMING, 0, fun _ => 0⟩ 0xFFFFFFFFFFFFFFFF
    (by decide)
  exact absurd hrecorded (by decide)

end Kernel.Memory.OptimizedUnifiedMemoryManager
