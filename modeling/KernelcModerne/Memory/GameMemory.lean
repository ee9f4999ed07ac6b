import KernelcModerne.Lib.AListTotal
import KernelcModerne.Lib.Extent
import KernelcModerne.Lib.Transition
import KernelcModerne.Lib.Word64

open Transition

namespace Kernel.Memory.GameMemory

/-- The blocks that `_aligned_malloc` returned; `freed` records the calls of
`_aligned_free`. -/
structure PageAllocator where
  allocations : AList fun _ : Nat => Nat
  freed : List Nat

namespace PageAllocator

/-- `ptr` is the answer of `_aligned_malloc`, 0 for null. -/
def AllocateAligned (self : PageAllocator) (size ptr : Nat) : PageAllocator × Nat :=
  if ptr ≠ 0 then ({ self with allocations := self.allocations.insert ptr size }, ptr) else (self, ptr)

def Deallocate (self : PageAllocator) (ptr : Nat) : PageAllocator :=
  if (self.allocations.lookup ptr).isSome then
    { allocations := self.allocations.erase ptr, freed := self.freed ++ [ptr] }
  else self

end PageAllocator

structure MemoryStats where
  totalAllocated : Nat
  peakUsage : Nat

/-- The parts of the manager that serve game memory. -/
structure EnhancedMemoryManager where
  pageAllocator : PageAllocator
  memoryMap : AList fun _ : Nat => Nat
  stats : MemoryStats

namespace EnhancedMemoryManager

def constructed : EnhancedMemoryManager where
  pageAllocator := { allocations := ∅, freed := [] }
  memoryMap := ∅
  stats := { totalAllocated := 0, peakUsage := 0 }

def AllocateGameMemory (self : EnhancedMemoryManager) (size malloc : Nat) : EnhancedMemoryManager × Nat :=
  let (pageAllocator, ptr) := self.pageAllocator.AllocateAligned size malloc
  if ptr ≠ 0 then
    let totalAllocated := Word64.add self.stats.totalAllocated size
    ({ pageAllocator
       memoryMap := self.memoryMap.insert ptr size
       stats := { totalAllocated, peakUsage := max self.stats.peakUsage totalAllocated } }, ptr)
  else ({ self with pageAllocator }, ptr)

def FreeGameMemory (self : EnhancedMemoryManager) (ptr : Nat) : EnhancedMemoryManager :=
  match self.memoryMap.lookup ptr with
  | some size =>
    { pageAllocator := self.pageAllocator.Deallocate ptr
      memoryMap := self.memoryMap.erase ptr
      stats := { self.stats with totalAllocated := Word64.sub self.stats.totalAllocated size } }
  | none => self

/-- The sum of the sizes in `memoryMap`. -/
def liveBytes (self : EnhancedMemoryManager) : Nat := self.memoryMap.total fun _ size => size

def blocks (self : EnhancedMemoryManager) : List Extent :=
  self.memoryMap.entries.map fun e => ⟨e.1, e.2⟩

/-- The blocks lie in the address space, not at null, and share no byte. -/
def BlocksApart (self : EnhancedMemoryManager) : Prop :=
  self.blocks.Pairwise Extent.Apart ∧ ∀ block ∈ self.blocks, 1 ≤ block.start ∧ block.stop ≤ 2 ^ 64

theorem BlocksApart.liveBytes_lt {self : EnhancedMemoryManager} (h : self.BlocksApart) :
    self.liveBytes < 2 ^ 64 := by
  have hsum := Extent.sum_len_le h.1 (fun e he => (h.2 e he).1) fun e he => (h.2 e he).2
  have hbytes : (self.blocks.map Extent.len).sum = self.liveBytes := by
    rw [blocks, List.map_map]
    rfl
  rw [hbytes] at hsum
  omega

end EnhancedMemoryManager

inductive Op where
  | allocate (size malloc : UInt64)
  | free (ptr : UInt64)

/-- The manager, the blocks that `_aligned_malloc` returned and has not got
back, and the values that `totalAllocated` has had. -/
structure Client where
  manager : EnhancedMemoryManager
  live : List Extent
  totals : List Nat

namespace Client

def constructed : Client where
  manager := .constructed
  live := []
  totals := [0]

def step (client : Client) : Op → Option Client
  | .allocate size malloc =>
    let (manager, ptr) := client.manager.AllocateGameMemory size.toNat malloc.toNat
    some
      { manager
        live := if ptr ≠ 0 then ⟨ptr, size.toNat⟩ :: client.live else client.live
        totals := manager.stats.totalAllocated :: client.totals }
  | .free ptr =>
    let manager := client.manager.FreeGameMemory ptr.toNat
    let freed := manager.pageAllocator.freed.drop client.manager.pageAllocator.freed.length
    some
      { manager
        live := client.live.filter fun block => block.start ∉ freed
        totals := manager.stats.totalAllocated :: client.totals }

/-- What `_aligned_malloc` promises: null, or a block of the address space that
is not live, neither its address nor any of its bytes. -/
def Fresh (client : Client) : Op → Prop
  | .allocate size malloc => malloc.toNat = 0 ∨ malloc.toNat + size.toNat ≤ 2 ^ 64 ∧
    ∀ block ∈ client.live, block.start ≠ malloc.toNat ∧ (Extent.mk malloc.toNat size.toNat).Apart block
  | .free _ => True

/-- The maps hold the same pointers with the same sizes, `totalAllocated` is the
sum of the sizes, and `peakUsage` is the most that it has been. -/
structure Accounted (client : Client) : Prop where
  same : ∀ ptr, client.manager.memoryMap.lookup ptr = client.manager.pageAllocator.allocations.lookup ptr
  total : client.manager.stats.totalAllocated = client.manager.liveBytes
  peak : client.manager.stats.peakUsage ∈ client.totals ∧
    ∀ total ∈ client.totals, total ≤ client.manager.stats.peakUsage

/-- Balanced accounts over blocks that `_aligned_malloc` keeps apart. -/
structure Tracked (client : Client) : Prop extends client.Accounted where
  current : client.manager.stats.totalAllocated ∈ client.totals
  live : ∀ block ∈ client.manager.blocks, block ∈ client.live
  apart : client.manager.BlocksApart

variable {client after : Client}

theorem constructed_tracked : constructed.Tracked where
  same _ := rfl
  total := rfl
  peak := by simp [constructed, EnhancedMemoryManager.constructed]
  current := List.mem_singleton_self 0
  live := by simp [constructed, EnhancedMemoryManager.constructed, EnhancedMemoryManager.blocks]
  apart := ⟨.nil, by simp [constructed, EnhancedMemoryManager.constructed, EnhancedMemoryManager.blocks]⟩

/-- The peak takes in a further total. -/
theorem peak_cons {totals : List Nat} {peak : Nat} (total : Nat)
    (h : peak ∈ totals ∧ ∀ earlier ∈ totals, earlier ≤ peak) :
    max peak total ∈ total :: totals ∧ ∀ earlier ∈ total :: totals, earlier ≤ max peak total := by
  refine ⟨?_, List.forall_mem_cons.mpr ⟨le_max_right _ _, fun earlier hearlier => ?_⟩⟩
  · cases max_choice peak total with
    | inl hpeak =>
      rw [hpeak]
      exact List.mem_cons_of_mem _ h.1
    | inr htotal =>
      rw [htotal]
      exact List.mem_cons_self
  · exact (h.2 earlier hearlier).trans (le_max_left _ _)

/-- A total below the peak leaves it. -/
theorem peak_cons_of_le {totals : List Nat} {peak total : Nat}
    (h : peak ∈ totals ∧ ∀ earlier ∈ totals, earlier ≤ peak) (hle : total ≤ peak) :
    peak ∈ total :: totals ∧ ∀ earlier ∈ total :: totals, earlier ≤ peak :=
  ⟨List.mem_cons_of_mem _ h.1, List.forall_mem_cons.mpr ⟨hle, h.2⟩⟩

/-- A call that leaves the manager as it was. -/
theorem Tracked.of_manager (h : client.Tracked) (hmanager : after.manager = client.manager)
    (hlive : after.live = client.live)
    (htotals : after.totals = client.manager.stats.totalAllocated :: client.totals) : after.Tracked where
  same := hmanager ▸ h.same
  total := hmanager ▸ h.total
  peak := by
    rw [hmanager, htotals]
    exact peak_cons_of_le h.peak (h.peak.2 _ h.current)
  current := by
    rw [hmanager, htotals]
    exact List.mem_cons_self
  live := hmanager ▸ hlive ▸ h.live
  apart := hmanager ▸ h.apart

theorem mem_blocks {manager : EnhancedMemoryManager} {block : Extent} :
    block ∈ manager.blocks ↔ manager.memoryMap.lookup block.start = some block.len := by
  rw [EnhancedMemoryManager.blocks, List.mem_map, ← Option.mem_def, AList.mem_lookup_iff]
  constructor
  · rintro ⟨⟨ptr, size⟩, he, rfl⟩
    exact he
  · intro he
    exact ⟨_, he, rfl⟩

/-- A pointer that is not live is in neither table. -/
theorem Tracked.notMem (h : client.Tracked) {ptr : Nat} (hlive : ∀ block ∈ client.live, block.start ≠ ptr) :
    ptr ∉ client.manager.memoryMap := by
  intro hmem
  obtain ⟨len, hlookup⟩ := AList.exists_lookup_of_mem hmem
  exact hlive _ (h.live ⟨ptr, len⟩ (mem_blocks.mpr hlookup)) rfl

theorem blocks_insert {manager : EnhancedMemoryManager} {ptr : Nat} (h : ptr ∉ manager.memoryMap) (size : Nat) :
    ((manager.memoryMap.insert ptr size).entries.map fun e => Extent.mk e.1 e.2) =
      ⟨ptr, size⟩ :: manager.blocks := by
  rw [AList.entries_insert_of_notMem h, List.map_cons]
  rfl

theorem blocks_erase (manager : EnhancedMemoryManager) (ptr : Nat) :
    ((manager.memoryMap.erase ptr).entries.map fun e => Extent.mk e.1 e.2).Sublist manager.blocks :=
  (List.kerase_sublist _ _).map _

/-- Tables that agree still do with a further entry. -/
theorem lookup_insert_congr {first second : AList fun _ : Nat => Nat}
    (h : ∀ ptr, first.lookup ptr = second.lookup ptr) (ptr size other : Nat) :
    (first.insert ptr size).lookup other = (second.insert ptr size).lookup other := by
  by_cases hother : other = ptr
  · rw [hother, AList.lookup_insert, AList.lookup_insert]
  · rw [AList.lookup_insert_ne hother, AList.lookup_insert_ne hother, h]

theorem lookup_erase_congr {first second : AList fun _ : Nat => Nat}
    (h : ∀ ptr, first.lookup ptr = second.lookup ptr) (ptr other : Nat) :
    (first.erase ptr).lookup other = (second.erase ptr).lookup other := by
  by_cases hother : other = ptr
  · rw [hother, AList.lookup_erase, AList.lookup_erase]
  · rw [AList.lookup_erase_ne hother, AList.lookup_erase_ne hother, h]

theorem Tracked.step_allocate (h : client.Tracked) {size malloc : UInt64}
    (hfresh : client.Fresh (.allocate size malloc))
    (hstep : client.step (.allocate size malloc) = some after) : after.Tracked := by
  by_cases hnull : malloc.toNat = 0
  · simp only [Client.step, EnhancedMemoryManager.AllocateGameMemory, PageAllocator.AllocateAligned, hnull,
      ne_eq, not_true_eq_false, if_false, Option.some.injEq] at hstep
    exact h.of_manager (hstep ▸ rfl) (hstep ▸ rfl) (hstep ▸ rfl)
  · obtain ⟨hspace, hlive⟩ := hfresh.resolve_left hnull
    have hnew := h.notMem fun block hblock => (hlive block hblock).1
    simp only [Client.step, EnhancedMemoryManager.AllocateGameMemory, PageAllocator.AllocateAligned, ne_eq, hnull,
      not_false_eq_true, if_true, Option.some.injEq] at hstep
    subst hstep
    have hblocks := blocks_insert hnew size.toNat
    have hapart : EnhancedMemoryManager.BlocksApart
        { client.manager with memoryMap := client.manager.memoryMap.insert malloc.toNat size.toNat } := by
      simp only [EnhancedMemoryManager.BlocksApart, EnhancedMemoryManager.blocks, hblocks]
      refine ⟨List.pairwise_cons.mpr ⟨fun block hblock => (hlive block (h.live block hblock)).2, h.apart.1⟩, ?_⟩
      exact List.forall_mem_cons.mpr ⟨⟨Nat.one_le_iff_ne_zero.mpr hnull, hspace⟩, h.apart.2⟩
    have hbytes : (client.manager.memoryMap.insert malloc.toNat size.toNat).total (fun _ size => size) =
        client.manager.liveBytes + size.toNat :=
      AList.total_insert_of_lookup_none _ (AList.lookup_eq_none.mpr hnew) size.toNat
    -- the bytes of blocks that are apart fit the address space, and so the sum does not wrap
    have hbound := hapart.liveBytes_lt
    rw [EnhancedMemoryManager.liveBytes, hbytes] at hbound
    have hadd : Word64.add client.manager.liveBytes size.toNat = client.manager.liveBytes + size.toNat :=
      Word64.add_eq_of_lt (by omega)
    constructor
    · constructor
      · exact fun ptr => lookup_insert_congr h.same malloc.toNat size.toNat ptr
      · simp only [h.total, hadd]
        exact hbytes.symm
      · exact peak_cons _ h.peak
    · exact List.mem_cons_self
    · intro block hblock
      simp only [EnhancedMemoryManager.blocks, hblocks] at hblock
      cases List.mem_cons.mp hblock with
      | inl heq => exact heq ▸ List.mem_cons_self
      | inr hmem => exact List.mem_cons_of_mem _ (h.live block hmem)
    · exact hapart

theorem Tracked.step_free (h : client.Tracked) {ptr : UInt64}
    (hstep : client.step (.free ptr) = some after) : after.Tracked := by
  cases hlookup : client.manager.memoryMap.lookup ptr.toNat with
  | none =>
    simp only [Client.step, EnhancedMemoryManager.FreeGameMemory, hlookup, List.drop_length,
      List.not_mem_nil, not_false_eq_true, decide_true, List.filter_true, Option.some.injEq] at hstep
    exact h.of_manager (hstep ▸ rfl) (hstep ▸ rfl) (hstep ▸ rfl)
  | some size =>
    have hallocated : client.manager.pageAllocator.allocations.lookup ptr.toNat = some size :=
      (h.same _).symm.trans hlookup
    simp only [Client.step, EnhancedMemoryManager.FreeGameMemory, hlookup, PageAllocator.Deallocate,
      hallocated, Option.isSome_some, if_true, List.drop_left, Option.some.injEq] at hstep
    subst hstep
    have hbytes : client.manager.liveBytes =
        size + (client.manager.memoryMap.erase ptr.toNat).total fun _ size => size :=
      AList.total_erase_of_lookup _ hlookup
    have hbound := h.apart.liveBytes_lt
    have htotal : Word64.sub client.manager.stats.totalAllocated size =
        (client.manager.memoryMap.erase ptr.toNat).total fun _ size => size := by
      rw [h.total, Word64.sub_eq_of_le (by omega) hbound]
      omega
    have hle : Word64.sub client.manager.stats.totalAllocated size ≤ client.manager.stats.totalAllocated := by
      rw [htotal, h.total]
      omega
    have hsub := blocks_erase client.manager ptr.toNat
    constructor
    · constructor
      · exact fun other => lookup_erase_congr h.same ptr.toNat other
      · exact htotal
      · exact peak_cons_of_le h.peak (hle.trans (h.peak.2 _ h.current))
    · exact List.mem_cons_self
    · intro block hblock
      refine List.mem_filter.mpr ⟨h.live block (hsub.subset hblock), ?_⟩
      have hkept : (client.manager.memoryMap.erase ptr.toNat).lookup block.start = some block.len :=
        mem_blocks.mp hblock
      simp only [List.mem_singleton, decide_eq_true_eq]
      intro hstart
      rw [hstart, AList.lookup_erase] at hkept
      cases hkept
    · exact ⟨h.apart.1.sublist hsub, fun block hblock => h.apart.2 block (hsub.subset hblock)⟩

/-- Over any run on an allocator that keeps its promise, with failed
allocations and frees of any pointer, the accounts of game memory balance. -/
theorem game_memory_accounted (ops : List Op) (hfresh : Guarded step Fresh constructed ops) :
    Always step Accounted constructed ops := by
  have htracked : Always step Tracked constructed ops := by
    refine always_of_guarded (fun client op after h hguard hstep => ?_) ops constructed_tracked hfresh
    cases op with
    | allocate size malloc => exact h.step_allocate hguard hstep
    | free ptr => exact h.step_free hstep
  exact htracked.imp fun _ h => h.toAccounted

/-- A block, an allocation that fails, and two frees of the block. -/
theorem game_memory_accounted_double_free :
    Always step Accounted constructed
      [.allocate 100 0x1000, .allocate 50 0, .free 0x1000, .free 0x1000] := by
  refine game_memory_accounted _ ?_
  intro _ _
  refine ⟨.inr ⟨by decide, by simp [constructed]⟩, ?_⟩
  intro _ _
  refine ⟨.inl rfl, ?_⟩
  exact fun _ _ => ⟨trivial, fun _ _ => ⟨trivial, trivial⟩⟩

end Client

end Kernel.Memory.GameMemory
