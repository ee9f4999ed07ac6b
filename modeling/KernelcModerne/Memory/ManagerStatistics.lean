import KernelcModerne.Memory.PageLedger

open Transition

namespace Kernel.Memory.OptimizedUnifiedMemoryManager

variable {starts : Fin POOL_COUNT → Nat} {manager : OptimizedUnifiedMemoryManager}

/-- The sizes recorded for each pool add up to at most its counter, which stays
within the pool. -/
def CountersBounded (manager : OptimizedUnifiedMemoryManager) : Prop :=
  ∀ index, poolTotal manager.poolAllocations index ≤ (manager.pools index).used ∧
    (manager.pools index).used ≤ (manager.pools index).size

/-- The arithmetic of a call on the counters does not wrap: neither the sum that
a pool with the size for the request is tested with, nor the subtraction of a
block that is freed. -/
def CountsExactly (manager : OptimizedUnifiedMemoryManager) : Op → Prop
  | .allocate size _ => ∀ index, alignSize size.toNat ≤ (manager.pools index).size →
      (manager.pools index).used + alignSize size.toNat < 2 ^ 64
  | .free ptr => ∀ info, manager.poolAllocations.lookup ptr.toNat = some info →
      info.size ≤ (manager.pools info.poolIndex).used

theorem Accounted.countersBounded (h : manager.Accounted starts) : manager.CountersBounded := by
  intro index
  rw [h.size]
  exact ⟨h.total_le index, h.used_le index⟩

/-- A recorded block is part of what its pool has given out. -/
theorem Accounted.size_le_used (h : manager.Accounted starts) {ptr : Nat} {info : PoolAllocationInfo}
    (hlookup : manager.poolAllocations.lookup ptr = some info) :
    info.size ≤ (manager.pools info.poolIndex).used := by
  have htotal : poolTotal manager.poolAllocations info.poolIndex =
      sizeIn info.poolIndex info + poolTotal (manager.poolAllocations.erase ptr) info.poolIndex :=
    AList.total_erase_of_lookup _ hlookup
  have hle := h.total_le info.poolIndex
  rw [htotal, sizeIn, if_pos rfl] at hle
  omega

theorem Accounted.countsExactly (h : manager.Accounted starts) (op : Op) : manager.CountsExactly op := by
  cases op with
  | free ptr => exact fun info hlookup => h.size_le_used hlookup
  | allocate size answers =>
    intro index hsize
    have hused := h.used_lt index
    have hbound := poolSize_le index
    rw [h.size] at hsize
    omega

/-- In every run, whether its blocks overlap or not, the counter of each pool
covers what is recorded for it, stays within the pool, and never wraps. -/
theorem pool_counters_never_wrap (starts : Fin POOL_COUNT → UInt64) (totalPages availablePages : Nat)
    (ops : List Op) :
    Always step CountersBounded (initialized (fun index => (starts index).toNat) totalPages availablePages) ops ∧
      Guarded step CountsExactly
        (initialized (fun index => (starts index).toNat) totalPages availablePages) ops := by
  have hinit := initialized_accounted (fun index => (starts index).toNat) totalPages availablePages
  have hkeep (manager : OptimizedUnifiedMemoryManager) (op : Op) (after : OptimizedUnifiedMemoryManager)
      (h : manager.Accounted fun index => (starts index).toNat) (hstep : manager.step op = some after) :
      after.Accounted fun index => (starts index).toNat := by
    cases op with
    | allocate size answers =>
      obtain rfl := Option.some.inj hstep
      exact h.allocateMemory answers size.toNat
    | free ptr =>
      obtain rfl := Option.some.inj hstep
      exact h.freeMemory (fun index => (starts index).toNat_lt) ptr.toNat
  constructor
  · exact (always_of_step hkeep ops hinit).imp fun _ h => h.countersBounded
  · exact along_of_step _ (fun manager op after h hstep =>
      ⟨h.countsExactly op, hkeep manager op after h hstep⟩) ops hinit

/-- `allocateMemory` takes nothing off the available memory. -/
theorem allocateMemory_memory (manager : OptimizedUnifiedMemoryManager) (answers : Answers) (size : Nat) :
    (manager.allocateMemory answers size).1.availableMemory = manager.availableMemory ∧
      (manager.allocateMemory answers size).1.totalMemory = manager.totalMemory := by
  simp only [allocateMemory]
  split
  · exact ⟨rfl, rfl⟩
  · split
    · exact ⟨rfl, rfl⟩
    · simp only [allocatePages]
      split
      · exact ⟨rfl, rfl⟩
      · next pools _ _ =>
        obtain ⟨_, _, hmapped⟩ := { manager with pools }.mapPages_frame answers.pages
          (Word64.add (alignSize size) (PAGE_SIZE - 1) / PAGE_SIZE) answers.frame
        rw [hmapped]
        exact ⟨rfl, rfl⟩

/-- `freeMemory` adds the pages of a range that it frees to the available
memory, and nothing otherwise. -/
theorem freeMemory_memory (manager : OptimizedUnifiedMemoryManager) (ptr : Nat) :
    (manager.freeMemory ptr).1.totalMemory = manager.totalMemory ∧
      ((manager.freeMemory ptr).1.availableMemory = manager.availableMemory ∨
        ∃ info, manager.pageAllocations.lookup ptr = some info ∧
          (manager.freeMemory ptr).1.availableMemory =
            Word64.add manager.availableMemory (Word64.mul info.numPages PAGE_SIZE)) := by
  cases hpool : manager.poolAllocations.lookup ptr with
  | some info =>
    obtain ⟨_, _, _, hfree⟩ := freeMemory_pool_frame hpool
    rw [hfree]
    exact ⟨rfl, .inl rfl⟩
  | none =>
    simp only [freeMemory, hpool]
    split
    · exact ⟨rfl, .inl rfl⟩
    · next numPages hlookup =>
      obtain ⟨_, _, _, hunmapped⟩ := manager.unmapPages_frame ptr numPages
      rw [hunmapped]
      exact ⟨rfl, .inr ⟨⟨numPages⟩, hlookup, rfl⟩⟩

namespace PageClient

/-- The pages of the ranges that callers of `allocateMemory` hold. -/
def livePages (client : PageClient) : Nat := (client.handedOut.map Prod.snd).sum

/-- Of the memory available at the start, what the live ranges do not hold is
available, and no more than there is in all. -/
def Conserved (initial : Nat) (client : PageClient) : Prop :=
  client.manager.availableMemory + PAGE_SIZE * client.livePages = initial ∧
    client.manager.availableMemory ≤ client.manager.totalMemory

/-- No request gets a page from the page allocator. -/
def TakesNoPage (client : PageClient) : Op → Prop
  | .allocate size answers => ∀ pages, client.manager.pagesRequested answers size.toNat = some pages →
    answers.pages = 0 ∨ pages = 0
  | .free _ => True

/-- The counters as they were at the start, and no page held. -/
structure Untouched (available total : Nat) (client : PageClient) : Prop where
  available : client.manager.availableMemory = available
  total : client.manager.totalMemory = total
  handedOut : ∀ range ∈ client.handedOut, range.2 = 0
  recorded : ∀ ptr info, client.manager.pageAllocations.lookup ptr = some info → info.numPages = 0

variable {available total : Nat} {client after : PageClient}

theorem livePages_eq_zero (h : ∀ range ∈ client.handedOut, range.2 = 0) : client.livePages = 0 := by
  apply List.sum_eq_zero
  intro pages hpages
  obtain ⟨range, hrange, rfl⟩ := List.mem_map.mp hpages
  exact h range hrange

/-- In such a state the memory is conserved when it was at the start. -/
theorem Untouched.conserved_iff (h : client.Untouched available total) :
    client.Conserved available ↔ available ≤ total := by
  rw [Conserved, livePages_eq_zero h.handedOut, h.available, h.total]
  simp

theorem Untouched.step_free (h : client.Untouched available total) (hbound : available < 2 ^ 64)
    {ptr : UInt64} (hstep : client.step (.free ptr) = some after) : after.Untouched available total := by
  obtain rfl := Option.some.inj hstep
  obtain ⟨htotal, havailable⟩ := client.manager.freeMemory_memory ptr.toNat
  refine ⟨?_, htotal.trans h.total, ?_, ?_⟩
  · cases havailable with
    | inl hsame => exact hsame.trans h.available
    | inr hadded =>
      -- the ranges that can be freed have no page
      obtain ⟨info, hlookup, hadded⟩ := hadded
      rw [h.recorded _ info hlookup, h.available] at hadded
      simp only [hadded, Word64.mul, Word64.add]
      omega
  · exact fun range hrange => h.handedOut range (List.diff_subset _ _ hrange)
  · intro other info hlookup
    cases client.manager.freeMemory_pages ptr.toNat with
    | inr hkept =>
      obtain ⟨_, _, hallocations, _⟩ := hkept
      simp only [hallocations] at hlookup
      exact h.recorded other info hlookup
    | inl hfreed =>
      obtain ⟨_, _, _, _, _, hallocations, _⟩ := hfreed
      simp only [hallocations] at hlookup
      by_cases hother : other = ptr.toNat
      · rw [hother, AList.lookup_erase] at hlookup
        cases hlookup
      · rw [AList.lookup_erase_ne hother] at hlookup
        exact h.recorded other info hlookup

/-- An allocation that takes no page leaves the state such. -/
theorem Untouched.step_allocate (h : client.Untouched available total) {size : UInt64} {answers : Answers}
    (hstep : client.step (.allocate size answers) = some after)
    (hnone : client.TakesNoPage (.allocate size answers)) : after.Untouched available total := by
  obtain rfl := Option.some.inj hstep
  obtain ⟨havailable, htotal⟩ := client.manager.allocateMemory_memory answers size.toNat
  refine ⟨havailable.trans h.available, htotal.trans h.total, ?_, ?_⟩
  · intro range hrange
    cases hrequest : client.manager.pagesRequested answers size.toNat with
    | none =>
      simp only [hrequest, lend] at hrange
      exact h.handedOut range hrange
    | some pages =>
      simp only [hrequest, lend] at hrange
      split at hrange
      · exact h.handedOut range hrange
      · next hanswer =>
        cases List.mem_cons.mp hrange with
        | inl heq => exact heq ▸ (hnone pages hrequest).resolve_left hanswer
        | inr hmem => exact h.handedOut range hmem
  · intro ptr info hlookup
    cases client.manager.allocateMemory_pages answers size.toNat with
    | inr hkept =>
      obtain ⟨_, hallocations, _⟩ := hkept
      simp only [hallocations] at hlookup
      exact h.recorded ptr info hlookup
    | inl hmapped =>
      obtain ⟨pages, hrequest, hanswer, hallocations, _⟩ := hmapped
      simp only [hallocations] at hlookup
      by_cases hptr : ptr = answers.pages
      · rw [hptr, AList.lookup_insert] at hlookup
        obtain rfl := Option.some.inj hlookup
        exact (hnone pages hrequest).resolve_left hanswer
      · rw [AList.lookup_insert_ne hptr] at hlookup
        exact h.recorded ptr info hlookup

/-- An allocation that takes pages is not subtracted. -/
theorem Untouched.not_conserved (h : client.Untouched available total) {size : UInt64} {answers : Answers}
    (hstep : client.step (.allocate size answers) = some after)
    (htakes : ¬ client.TakesNoPage (.allocate size answers)) : ¬ after.Conserved available := by
  rintro ⟨hconserved, _⟩
  obtain rfl := Option.some.inj hstep
  apply htakes
  intro pages hrequest
  by_contra hboth
  rw [not_or] at hboth
  have hledger : lend client.handedOut answers.pages (client.manager.pagesRequested answers size.toNat) =
      (answers.pages, pages) :: client.handedOut := by
    rw [hrequest]
    exact if_neg hboth.1
  simp only [livePages, hledger, List.map_cons, List.sum_cons, PAGE_SIZE,
    (client.manager.allocateMemory_memory answers size.toNat).1, h.available] at hconserved
  omega

theorem Untouched.conserved_step_iff (h : client.Untouched available total) (hbound : available < 2 ^ 64)
    (htotal : available ≤ total) {op : Op} (hstep : client.step op = some after) :
    after.Conserved available ↔ client.TakesNoPage op := by
  cases op with
  | free ptr => exact iff_of_true ((h.step_free hbound hstep).conserved_iff.mpr htotal) trivial
  | allocate size answers =>
    constructor
    · intro hconserved
      by_contra htakes
      exact h.not_conserved hstep htakes hconserved
    · intro hnone
      exact (h.step_allocate hstep hnone).conserved_iff.mpr htotal

theorem Untouched.step (h : client.Untouched available total) (hbound : available < 2 ^ 64) {op : Op}
    (hstep : client.step op = some after) (hnone : client.TakesNoPage op) : after.Untouched available total := by
  cases op with
  | free ptr => exact h.step_free hbound hstep
  | allocate size answers => exact h.step_allocate hstep hnone

/-- The available memory is conserved, and at most the total, in every state of
a run exactly when it is at most the total at the start and no request gets a
page: `allocateMemory` subtracts none, and `freeMemory` adds them. -/
theorem availableMemory_conserved_iff (starts : Fin POOL_COUNT → Nat) (totalPages availablePages : Nat)
    (ops : List Op) :
    Always step (Conserved (Word64.mul availablePages PAGE_SIZE))
        (initialized starts totalPages availablePages) ops ↔
      Word64.mul availablePages PAGE_SIZE ≤ Word64.mul totalPages PAGE_SIZE ∧
        Guarded step TakesNoPage (initialized starts totalPages availablePages) ops := by
  have hbound : Word64.mul availablePages PAGE_SIZE < 2 ^ 64 := Nat.mod_lt _ (by decide)
  have hinit : (initialized starts totalPages availablePages).Untouched
      (Word64.mul availablePages PAGE_SIZE) (Word64.mul totalPages PAGE_SIZE) := by
    refine ⟨rfl, rfl, by simp [initialized], fun ptr info hlookup => ?_⟩
    simp [initialized, OptimizedUnifiedMemoryManager.initialized] at hlookup
  rw [Always, hinit.conserved_iff]
  refine and_congr_right fun htotal => ?_
  exact along_iff_along _
    (fun client op after h (hstep : client.step op = some after) => h.conserved_step_iff hbound htotal hstep)
    (fun client op after h (hstep : client.step op = some after) hconserved =>
      h.step hbound hstep ((h.conserved_step_iff hbound htotal hstep).mp hconserved)) ops hinit

/-- A request too large for its pool, allocated and freed: more is available
than there is. -/
theorem freed_pages_exceed_total :
    ¬ Always step (Conserved (Word64.mul 1024 PAGE_SIZE)) (initialized Client.spreadLayout.start 1024 1024)
      [.allocate 0x11000 ⟨.GAMING, 0x10000, fun i => i⟩, .free 0x10000] := by
  rintro ⟨_, h⟩
  obtain ⟨_, h⟩ := h _ rfl
  obtain ⟨⟨_, htotal⟩, _⟩ := h _ rfl
  exact absurd htotal (by decide)

end PageClient

end Kernel.Memory.OptimizedUnifiedMemoryManager
