import KernelcModerne.Memory.PoolRuns

open Transition

namespace Kernel.Memory.OptimizedUnifiedMemoryManager

/-- One call on the manager alone. -/
def step (manager : OptimizedUnifiedMemoryManager) : Op → Option OptimizedUnifiedMemoryManager
  | .allocate size answers => some (manager.allocateMemory answers size.toNat).1
  | .free ptr => some (manager.freeMemory ptr.toNat).1

/-- Every valid entry of the TLB is a translation of the page table. -/
def TlbCoherent (manager : OptimizedUnifiedMemoryManager) : Prop :=
  ∀ index, (manager.tlbCache index).valid = true →
    manager.pageTable.lookup (manager.tlbCache index).virtualAddress =
      some (manager.tlbCache index).physicalAddress

/-- A coherent TLB whose valid entries stand in their own slots. -/
structure Translated (manager : OptimizedUnifiedMemoryManager) : Prop where
  slot : ∀ index, (manager.tlbCache index).valid = true →
    tlbIndex (manager.tlbCache index).virtualAddress = index
  coherent : manager.TlbCoherent

variable {manager : OptimizedUnifiedMemoryManager}

theorem Translated.of_invalid (hinvalid : ∀ index, (manager.tlbCache index).valid = false) :
    manager.Translated where
  slot index hvalid := by simp [hinvalid] at hvalid
  coherent index hvalid := by simp [hinvalid] at hvalid

/-- Calls that touch neither the TLB nor the page table. -/
theorem Translated.of_eq {after : OptimizedUnifiedMemoryManager} (h : manager.Translated)
    (htlb : after.tlbCache = manager.tlbCache) (htable : after.pageTable = manager.pageTable) :
    after.Translated where
  slot := htlb ▸ h.slot
  coherent := by
    unfold TlbCoherent
    rw [htlb, htable]
    exact h.coherent

theorem Translated.mapPage (h : manager.Translated) (vAddr pAddr : Nat) :
    (manager.mapPage vAddr pAddr).Translated := by
  have hself : (manager.mapPage vAddr pAddr).tlbCache (tlbIndex vAddr) = ⟨vAddr, pAddr, true⟩ :=
    Function.update_self ..
  have hother {index : Fin TLB_SIZE} (hne : index ≠ tlbIndex vAddr) :
      (manager.mapPage vAddr pAddr).tlbCache index = manager.tlbCache index :=
    Function.update_of_ne hne ..
  have htable : (manager.mapPage vAddr pAddr).pageTable = manager.pageTable.insert vAddr pAddr := rfl
  constructor <;> intro index hvalid <;> by_cases hindex : index = tlbIndex vAddr
  · rw [hindex, hself]
  · rw [hother hindex] at hvalid ⊢
    exact h.slot index hvalid
  · rw [hindex, hself, htable]
    exact AList.lookup_insert _
  · rw [hother hindex] at hvalid ⊢
    -- an entry for `vAddr` would stand in the slot of `vAddr`
    have hne : (manager.tlbCache index).virtualAddress ≠ vAddr := by
      intro heq
      rw [← heq, h.slot index hvalid] at hindex
      exact hindex rfl
    rw [htable, AList.lookup_insert_ne hne]
    exact h.coherent index hvalid

/-- The page table after one page is unmapped. -/
theorem unmapPage_pageTable (manager : OptimizedUnifiedMemoryManager) (pageAddr a : Nat) :
    (manager.unmapPage pageAddr).pageTable.lookup a =
      if a = pageAddr then none else manager.pageTable.lookup a := by
  simp only [unmapPage, invalidateTLBEntry]
  split <;> rename_i hlookup <;> by_cases ha : a = pageAddr
  · rw [ha, if_pos rfl, AList.lookup_erase]
  · rw [if_neg ha, AList.lookup_erase_ne ha]
  · rw [ha, if_pos rfl]
    exact hlookup
  · rw [if_neg ha]

theorem unmapPage_tlbCache (manager : OptimizedUnifiedMemoryManager) (pageAddr : Nat) :
    (manager.unmapPage pageAddr).tlbCache = (manager.invalidateTLBEntry pageAddr).tlbCache := by
  simp only [unmapPage]
  split <;> rfl

theorem Translated.unmapPage (h : manager.Translated) (pageAddr : Nat) :
    (manager.unmapPage pageAddr).Translated := by
  have hvalid_of {index : Fin TLB_SIZE}
      (hvalid : ((manager.unmapPage pageAddr).tlbCache index).valid = true) :
      index ≠ tlbIndex pageAddr ∧
        (manager.unmapPage pageAddr).tlbCache index = manager.tlbCache index := by
    rw [unmapPage_tlbCache] at hvalid ⊢
    simp only [invalidateTLBEntry] at hvalid ⊢
    by_cases hindex : index = tlbIndex pageAddr
    · rw [hindex, Function.update_self] at hvalid
      cases hvalid
    · exact ⟨hindex, Function.update_of_ne hindex ..⟩
  constructor <;> intro index hvalid <;> obtain ⟨hindex, hentry⟩ := hvalid_of hvalid <;>
    rw [hentry] at hvalid ⊢
  · exact h.slot index hvalid
  · have hne : (manager.tlbCache index).virtualAddress ≠ pageAddr := by
      intro heq
      rw [← heq, h.slot index hvalid] at hindex
      exact hindex rfl
    rw [unmapPage_pageTable, if_neg hne]
    exact h.coherent index hvalid

theorem Translated.mapPages (h : manager.Translated) (virtualAddr pages : Nat) (frame : Nat → Nat) :
    (manager.mapPages virtualAddr pages frame).Translated := by
  refine List.foldlRecOn (motive := Translated) _ _ h ?_
  intro after hafter i _
  exact hafter.mapPage _ _

theorem Translated.unmapPages (h : manager.Translated) (vAddr numPages : Nat) :
    (manager.unmapPages vAddr numPages).Translated := by
  refine List.foldlRecOn (motive := Translated) _ _ h ?_
  intro after hafter i _
  exact hafter.unmapPage _

theorem Translated.allocateMemory (h : manager.Translated) (answers : Answers) (size : Nat) :
    (manager.allocateMemory answers size).1.Translated := by
  simp only [OptimizedUnifiedMemoryManager.allocateMemory]
  split
  · exact h
  · split
    · exact h.of_eq rfl rfl
    · simp only [allocatePages]
      split
      · exact h.of_eq rfl rfl
      · rename_i pools _ _
        have hpools : { manager with pools }.Translated := h.of_eq rfl rfl
        exact (hpools.mapPages _ _ _).of_eq rfl rfl

theorem defragmentPool_frame (manager : OptimizedUnifiedMemoryManager) (index : Fin POOL_COUNT) :
    ∃ pools poolAllocations copies,
      manager.defragmentPool index = { manager with pools, poolAllocations, copies } := by
  simp only [defragmentPool]
  split <;> exact ⟨_, _, _, rfl⟩

/-- The pool path of `freeMemory` touches nothing that belongs to pages. -/
theorem freeMemory_pool_frame {ptr : Nat} {info : PoolAllocationInfo}
    (hlookup : manager.poolAllocations.lookup ptr = some info) :
    ∃ pools poolAllocations copies,
      (manager.freeMemory ptr).1 = { manager with pools, poolAllocations, copies } := by
  simp only [freeMemory, hlookup]
  split
  · obtain ⟨_, _, _, hdefragment⟩ := (manager.releaseBlock ptr info).defragmentPool_frame info.poolIndex
    rw [hdefragment]
    exact ⟨_, _, _, rfl⟩
  · exact ⟨_, _, _, rfl⟩

theorem Translated.freeMemory (h : manager.Translated) (ptr : Nat) :
    (manager.freeMemory ptr).1.Translated := by
  cases hlookup : manager.poolAllocations.lookup ptr with
  | some info =>
    obtain ⟨_, _, _, hfree⟩ := freeMemory_pool_frame hlookup
    rw [hfree]
    exact h.of_eq rfl rfl
  | none =>
    simp only [OptimizedUnifiedMemoryManager.freeMemory, hlookup]
    split
    · exact h
    · exact (h.unmapPages _ _).of_eq rfl rfl

theorem translated_of_run {start : OptimizedUnifiedMemoryManager}
    (hinvalid : ∀ index, (start.tlbCache index).valid = false) {ops : List Op}
    (hrun : run step start ops = some manager) : manager.Translated := by
  refine run_invariant Translated ?_ ops (.of_invalid hinvalid) hrun
  intro s op s' h hstep
  cases op with
  | allocate size answers =>
    cases hstep
    exact h.allocateMemory answers size.toNat
  | free ptr =>
    cases hstep
    exact h.freeMemory ptr.toNat

/-- From an invalid TLB on, no run leaves a stale translation in it. -/
theorem always_tlbCoherent (hinvalid : ∀ index, (manager.tlbCache index).valid = false)
    (ops : List Op) : Always step TlbCoherent manager ops := by
  rw [always_iff_forall_reached]
  intro first _ t hrun
  exact (translated_of_run hinvalid hrun).coherent

theorem always_tlbCoherent_initialized :
    Always step TlbCoherent (initialized Client.spreadLayout.start 0 0)
      [.allocate 8192 ⟨.other 0, 0x10000, fun i => i⟩, .free 0x10000] :=
  always_tlbCoherent (fun _ => rfl) _

/-- The pages that `allocateMemory` maps for a size. -/
def pageCount (size : Nat) : Nat := Word64.add (alignSize size) (PAGE_SIZE - 1) / PAGE_SIZE

/-- No pool serves the request, and the page allocator answers it. -/
def MapsPages (manager : OptimizedUnifiedMemoryManager) (answers : Answers) (size : Nat) : Prop :=
  size ≠ 0 ∧
    (allocateInPools (alignSize size) answers.workload (List.finRange POOL_COUNT) manager.pools).2 = none ∧
    answers.pages ≠ 0

instance (manager : OptimizedUnifiedMemoryManager) (answers : Answers) (size : Nat) :
    Decidable (manager.MapsPages answers size) :=
  inferInstanceAs (Decidable (_ ∧ _ ∧ _))

/-- The translation stands in the TLB, and is valid. -/
def Cached (manager : OptimizedUnifiedMemoryManager) (vAddr pAddr : Nat) : Prop :=
  ∃ index, manager.tlbCache index = ⟨vAddr, pAddr, true⟩

/-- The TLB after an allocation of pages is that of the mapping loop. -/
theorem MapsPages.tlbCache {answers : Answers} {size : Nat} (h : manager.MapsPages answers size) :
    ∃ pools, (manager.allocateMemory answers size).1.tlbCache =
      ({ manager with pools }.mapPages answers.pages (pageCount size) answers.frame).tlbCache := by
  obtain ⟨hsize, hpools, haddress⟩ := h
  simp only [OptimizedUnifiedMemoryManager.allocateMemory, if_neg hsize]
  cases hserved : allocateInPools (alignSize size) answers.workload (List.finRange POOL_COUNT) manager.pools with
  | mk pools served =>
    rw [hserved] at hpools
    dsimp only at hpools
    subst hpools
    refine ⟨pools, ?_⟩
    simp only [allocatePages, if_neg haddress]
    rfl

/-- The page that is mapped last has its entry. -/
theorem mapPages_last (manager : OptimizedUnifiedMemoryManager) (virtualAddr n : Nat) (frame : Nat → Nat) :
    (manager.mapPages virtualAddr (n + 1) frame).tlbCache (tlbIndex (pageAddress virtualAddr n)) =
      ⟨pageAddress virtualAddr n, frame n, true⟩ := by
  rw [mapPages, List.range_succ, List.foldl_append]
  exact Function.update_self ..

/-- All pages have one slot: the size of the TLB divides that of a page. -/
theorem tlbIndex_pageAddress {virtualAddr : Nat} (haligned : PAGE_SIZE ∣ virtualAddr) (i : Nat) :
    tlbIndex (pageAddress virtualAddr i) = tlbIndex 0 := by
  apply Fin.ext
  simp only [tlbIndex, pageAddress, Word64.add, Word64.mul, TLB_SIZE, PAGE_SIZE] at haligned ⊢
  omega

theorem pageCount_le (size : Nat) : pageCount size ≤ 2 ^ 52 := by
  have hlt := Word64.add_lt (alignSize size) (PAGE_SIZE - 1)
  unfold pageCount PAGE_SIZE at *
  omega

/-- The pages of one allocation have different addresses. -/
theorem pageAddress_injOn (virtualAddr : Nat) {i j : Nat} (hi : i < 2 ^ 52) (hj : j < 2 ^ 52)
    (h : pageAddress virtualAddr i = pageAddress virtualAddr j) : i = j := by
  simp only [pageAddress, Word64.add, Word64.mul, PAGE_SIZE] at h
  omega

/-- Each page takes the slot of the one before. -/
theorem Translated.first_cached_iff (h : manager.Translated) {answers : Answers} {size : Nat}
    (hmaps : manager.MapsPages answers size) (haligned : PAGE_SIZE ∣ answers.pages)
    (hpages : 1 ≤ pageCount size) :
    (manager.allocateMemory answers size).1.Cached (pageAddress answers.pages 0) (answers.frame 0) ↔
      pageCount size = 1 := by
  obtain ⟨pools, htlb⟩ := hmaps.tlbCache
  obtain ⟨n, hn⟩ : ∃ n, pageCount size = n + 1 := ⟨pageCount size - 1, by omega⟩
  have hlast := { manager with pools }.mapPages_last answers.pages n answers.frame
  rw [← hn, ← htlb] at hlast
  constructor
  · rintro ⟨index, hentry⟩
    -- the entry of the first page stands in the slot that the last page took
    have hslot := (h.allocateMemory answers size).slot index (by rw [hentry])
    rw [hentry, tlbIndex_pageAddress haligned] at hslot
    rw [tlbIndex_pageAddress haligned, hslot, hentry] at hlast
    have hcount := pageCount_le size
    have hsame := pageAddress_injOn answers.pages (by omega) (by omega)
      (congrArg TLBEntry.virtualAddress hlast)
    omega
  · intro hone
    obtain rfl : n = 0 := by omega
    exact ⟨_, hlast⟩

/-- In every state that is reached from an invalid TLB, the translations of the
pages that an allocation maps are all in the TLB exactly when there is only one. -/
theorem allocateMemory_cached_iff {start : OptimizedUnifiedMemoryManager}
    (hinvalid : ∀ index, (start.tlbCache index).valid = false) {ops : List Op}
    (hrun : run step start ops = some manager) {answers : Answers} {size : Nat}
    (hmaps : manager.MapsPages answers size) (haligned : PAGE_SIZE ∣ answers.pages)
    (hpages : 1 ≤ pageCount size) :
    (∀ i < pageCount size, (manager.allocateMemory answers size).1.Cached
      (pageAddress answers.pages i) (answers.frame i)) ↔ pageCount size = 1 := by
  have hfirst := (translated_of_run hinvalid hrun).first_cached_iff hmaps haligned hpages
  constructor
  · intro h
    exact hfirst.mp (h 0 hpages)
  · intro hone i hi
    obtain rfl : i = 0 := by omega
    exact hfirst.mpr hone

/-- One page. -/
theorem allocateMemory_cached_onePage :
    pageCount 4096 = 1 ∧ ∀ i < pageCount 4096, ((initialized Client.spreadLayout.start 0 0).allocateMemory
      ⟨.other 0, 0x10000, fun i => i⟩ 4096).1.Cached (pageAddress 0x10000 i) i := by
  have hrun : run step (initialized Client.spreadLayout.start 0 0) [] =
      some (initialized Client.spreadLayout.start 0 0) := rfl
  have hmaps : (initialized Client.spreadLayout.start 0 0).MapsPages ⟨.other 0, 0x10000, fun i => i⟩ 4096 := by
    decide
  have hone : pageCount 4096 = 1 := by decide
  exact ⟨hone, (allocateMemory_cached_iff (fun _ => rfl) hrun hmaps (by decide) (by decide)).mpr hone⟩

/-- The second of two pages evicts the first. -/
theorem first_page_evicted :
    PAGE_SIZE ∣ 0x10000 ∧ pageCount 8192 = 2 ∧
      (initialized Client.spreadLayout.start 0 0).MapsPages ⟨.other 0, 0x10000, fun i => i⟩ 8192 ∧
      ¬ ∀ i < pageCount 8192, ((initialized Client.spreadLayout.start 0 0).allocateMemory
        ⟨.other 0, 0x10000, fun i => i⟩ 8192).1.Cached (pageAddress 0x10000 i) i := by
  have hstart : (initialized Client.spreadLayout.start 0 0).Translated := .of_invalid fun _ => rfl
  have hmaps : (initialized Client.spreadLayout.start 0 0).MapsPages ⟨.other 0, 0x10000, fun i => i⟩ 8192 := by
    decide
  refine ⟨by decide, by decide, hmaps, fun h => ?_⟩
  have hone := (hstart.first_cached_iff hmaps (by decide) (by decide)).mp (h 0 (by decide))
  exact absurd hone (by decide)

end Kernel.Memory.OptimizedUnifiedMemoryManager
