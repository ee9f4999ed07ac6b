import KernelcModerne.Lib.Transition
import KernelcModerne.Memory.EnhancedPageAllocator

open Transition

namespace Kernel.Memory

structure EnhancedMemoryManager where
  pageAllocator : EnhancedPageAllocator
  totalMemory : Nat
  availableMemory : Nat

namespace EnhancedMemoryManager

open EnhancedPageAllocator (PAGE_SIZE HUGE_PAGE_SIZE)

def LARGE_PAGE_THRESHOLD : Nat := 2 * 1024 * 1024

/-- The manager after `initialize()`: 16 GiB from address 0x100000 on. -/
def initialized : EnhancedMemoryManager :=
  let memoryStart := 0x100000
  let memorySize := 16 * 1024 * 1024 * 1024
  { pageAllocator := .initialized memoryStart memorySize
    totalMemory := memorySize
    availableMemory := memorySize }

def allocateMemory (self : EnhancedMemoryManager) (size : Nat) :
    Option (EnhancedMemoryManager × Option Nat) :=
  if size ≥ LARGE_PAGE_THRESHOLD then
    (self.pageAllocator.allocate size true).map fun (pageAllocator, p) =>
      ({ self with pageAllocator }, p)
  else
    (self.pageAllocator.allocate size).map fun (pageAllocator, p) =>
      ({ self with pageAllocator }, p)

/-- Calls from `LARGE_PAGE_THRESHOLD` bytes on use huge pages. -/
def usesHugePages (size : Nat) : Bool := decide (LARGE_PAGE_THRESHOLD ≤ size)

theorem allocateMemory_eq (self : EnhancedMemoryManager) (size : Nat) :
    self.allocateMemory size =
      (self.pageAllocator.allocate size (usesHugePages size)).map fun (pageAllocator, p) =>
        ({ self with pageAllocator }, p) := by
  unfold allocateMemory usesHugePages
  by_cases hlarge : LARGE_PAGE_THRESHOLD ≤ size
  · rw [if_pos hlarge, decide_eq_true hlarge]
  · rw [if_neg hlarge, decide_eq_false hlarge]

/-- A manager and the blocks it has handed out. -/
structure Client where
  manager : EnhancedMemoryManager
  blocks : List Extent

namespace Client

def initialized : Client where
  manager := .initialized
  blocks := []

/-- One call of `allocateMemory(size)`; a null answer is no block. -/
def step (client : Client) (size : UInt64) : Option Client :=
  (client.manager.allocateMemory size.toNat).map fun
    | (manager, some p) => { manager, blocks := ⟨p, size.toNat⟩ :: client.blocks }
    | (manager, none) => { client with manager }

/-- The blocks handed out share no byte and lie inside the managed region. -/
structure Separate (client : Client) : Prop where
  apart : client.blocks.Pairwise Extent.Apart
  inside : ∀ b ∈ client.blocks, client.manager.pageAllocator.memoryStart ≤ b.start ∧
    b.stop ≤ client.manager.pageAllocator.memoryStart +
      client.manager.pageAllocator.totalPages * PAGE_SIZE

/-- What a call asks of the state before it. With `u` the number of marked
bits, a huge-page call is granted only while its bytes from `u` huge pages on
end inside the region, and a smaller call is granted only while its bytes from
`u` pages on meet no block of an earlier huge-page call. -/
def Fits (client : Client) (size : UInt64) : Prop :=
  let allocator := client.manager.pageAllocator
  allocator.Grants size.toNat (usesHugePages size.toNat) →
    if LARGE_PAGE_THRESHOLD ≤ size.toNat then
      allocator.usedPages * HUGE_PAGE_SIZE + size.toNat ≤ allocator.totalPages * PAGE_SIZE
    else
      ∀ b ∈ client.blocks, LARGE_PAGE_THRESHOLD ≤ b.len →
        (Extent.mk (allocator.memoryStart + allocator.usedPages * PAGE_SIZE) size.toNat).Apart b

/-- Where the blocks of each page size may lie when `usedPages` bits are
marked. -/
structure Tracked (client : Client) : Prop where
  packed : client.manager.pageAllocator.Packed
  memoryStart : client.manager.pageAllocator.memoryStart = 0x100000
  totalPages : client.manager.pageAllocator.totalPages = 4194304
  start_le : ∀ b ∈ client.blocks, 0x100000 ≤ b.start
  small_stop : ∀ b ∈ client.blocks, b.len < LARGE_PAGE_THRESHOLD →
    b.stop ≤ 0x100000 + client.manager.pageAllocator.usedPages * PAGE_SIZE
  large_stop : ∀ b ∈ client.blocks, LARGE_PAGE_THRESHOLD ≤ b.len →
    b.stop ≤ 0x100000 + client.manager.pageAllocator.usedPages * HUGE_PAGE_SIZE

theorem initialized_tracked : initialized.Tracked where
  packed := EnhancedPageAllocator.initialized_packed (by decide)
  memoryStart := rfl
  totalPages := rfl
  start_le := by simp [initialized]
  small_stop := by simp [initialized]
  large_stop := by simp [initialized]

/-- A refused call hands out nothing and leaves the state as it is. -/
theorem Tracked.step_refused {client : Client} (h : client.Tracked) {size : UInt64}
    (hrefuse : ¬ client.manager.pageAllocator.Grants size.toNat (usesHugePages size.toNat)) :
    client.step size = some client := by
  simp [step, allocateMemory_eq, EnhancedPageAllocator.allocate_refused h.packed hrefuse]

/-- The block that a granted call hands out: its bytes start as many pages of
the call's page size into the region as bits are marked. -/
def nextBlock (client : Client) (size : UInt64) : Extent where
  start := 0x100000 + client.manager.pageAllocator.usedPages *
    EnhancedPageAllocator.pageSize (usesHugePages size.toNat)
  len := size.toNat

theorem nextBlock_of_large (client : Client) {size : UInt64} (hlarge : LARGE_PAGE_THRESHOLD ≤ size.toNat) :
    client.nextBlock size =
      ⟨0x100000 + client.manager.pageAllocator.usedPages * HUGE_PAGE_SIZE, size.toNat⟩ := by
  rw [nextBlock, usesHugePages, decide_eq_true hlarge, EnhancedPageAllocator.pageSize, if_pos rfl]

theorem nextBlock_of_small (client : Client) {size : UInt64} (hsmall : size.toNat < LARGE_PAGE_THRESHOLD) :
    client.nextBlock size =
      ⟨0x100000 + client.manager.pageAllocator.usedPages * PAGE_SIZE, size.toNat⟩ := by
  rw [nextBlock, usesHugePages, decide_eq_false (Nat.not_le.mpr hsmall), EnhancedPageAllocator.pageSize,
    if_neg Bool.false_ne_true]

theorem Tracked.step_granted {client : Client} (h : client.Tracked) (size : UInt64)
    (hgrant : client.manager.pageAllocator.Grants size.toNat (usesHugePages size.toNat)) :
    ∃ after, client.step size = some after ∧
      after.blocks = client.nextBlock size :: client.blocks ∧
      after.manager.pageAllocator.memoryStart = 0x100000 ∧
      after.manager.pageAllocator.totalPages = 4194304 ∧
      after.manager.pageAllocator.usedPages = client.manager.pageAllocator.usedPages +
        EnhancedPageAllocator.pageCount size.toNat (usesHugePages size.toNat) ∧
      after.manager.pageAllocator.Packed := by
  obtain ⟨allocator, halloc, hstart, htotal, hused, hpacked⟩ :=
    EnhancedPageAllocator.allocate_granted h.packed hgrant
  have hroom := hgrant.2
  have htotal' := h.totalPages
  have haddress : Word64.add client.manager.pageAllocator.memoryStart
      (Word64.mul client.manager.pageAllocator.usedPages
        (EnhancedPageAllocator.pageSize (usesHugePages size.toNat))) =
      (client.nextBlock size).start := by
    have hscale : EnhancedPageAllocator.pageSize (usesHugePages size.toNat) ≤ HUGE_PAGE_SIZE := by
      unfold EnhancedPageAllocator.pageSize HUGE_PAGE_SIZE PAGE_SIZE
      split <;> decide
    have hbytes := Nat.mul_le_mul (show client.manager.pageAllocator.usedPages ≤ 4194304 by omega) hscale
    unfold HUGE_PAGE_SIZE at hbytes
    rw [h.memoryStart, Word64.mul_eq_of_lt (by omega), Word64.add_eq_of_lt (by omega)]
    rfl
  refine ⟨{ manager := { client.manager with pageAllocator := allocator },
            blocks := client.nextBlock size :: client.blocks }, ?_, rfl,
    hstart.trans h.memoryStart, htotal.trans h.totalPages, hused, hpacked⟩
  simp only [step, allocateMemory_eq, halloc, Option.map_some, haddress]
  rfl

/-- The bytes a granted call asks for fit into the pages it counts. -/
private theorem size_le_pages {size : UInt64} {useHugePages : Bool}
    (hpos : 0 < EnhancedPageAllocator.pageCount size.toNat useHugePages) :
    size.toNat ≤ EnhancedPageAllocator.pageCount size.toNat useHugePages *
      EnhancedPageAllocator.pageSize useHugePages := by
  have hsize := size.toNat_lt
  cases useHugePages with
  | false =>
    simp only [EnhancedPageAllocator.pageCount, EnhancedPageAllocator.pageSize, PAGE_SIZE,
      Word64.add, Bool.false_eq_true, if_false] at *
    omega
  | true =>
    simp only [EnhancedPageAllocator.pageCount, EnhancedPageAllocator.pageSize, HUGE_PAGE_SIZE,
      Word64.add, if_true] at *
    omega

/-- The block of a granted call ends where the pages it takes end. -/
private theorem nextBlock_stop_le (client : Client) {size : UInt64}
    (hpos : 0 < EnhancedPageAllocator.pageCount size.toNat (usesHugePages size.toNat)) :
    (client.nextBlock size).stop ≤ 0x100000 + (client.manager.pageAllocator.usedPages +
      EnhancedPageAllocator.pageCount size.toNat (usesHugePages size.toNat)) *
        EnhancedPageAllocator.pageSize (usesHugePages size.toNat) := by
  rw [Extent.stop, nextBlock, Nat.add_mul, ← Nat.add_assoc]
  exact Nat.add_le_add_left (size_le_pages hpos) _

theorem Tracked.step {client after : Client} (h : client.Tracked) {size : UInt64}
    (hstep : client.step size = some after) : after.Tracked := by
  by_cases hgrant : client.manager.pageAllocator.Grants size.toNat (usesHugePages size.toNat)
  · obtain ⟨after', hstep', hblocks, hstart, htotal, hused, hpacked⟩ := h.step_granted size hgrant
    obtain rfl : after' = after := by simpa [hstep'] using hstep
    have hstop := client.nextBlock_stop_le hgrant.1
    rw [← hused] at hstop
    have hmore {scale : Nat} : 0x100000 + client.manager.pageAllocator.usedPages * scale ≤
        0x100000 + after'.manager.pageAllocator.usedPages * scale :=
      Nat.add_le_add_left (Nat.mul_le_mul_right scale (hused ▸ Nat.le_add_right _ _)) _
    refine ⟨hpacked, hstart, htotal, ?_, ?_, ?_⟩
    · rw [hblocks]
      exact List.forall_mem_cons.mpr ⟨Nat.le_add_right _ _, h.start_le⟩
    · rw [hblocks]
      refine List.forall_mem_cons.mpr ⟨?_, fun b hb hlen => (h.small_stop b hb hlen).trans hmore⟩
      intro hlen
      have hsmall : usesHugePages size.toNat = false := decide_eq_false (not_le.mpr hlen)
      rwa [hsmall, EnhancedPageAllocator.pageSize, if_neg Bool.false_ne_true] at hstop
    · rw [hblocks]
      refine List.forall_mem_cons.mpr ⟨?_, fun b hb hlen => (h.large_stop b hb hlen).trans hmore⟩
      intro hlen
      have hlarge : usesHugePages size.toNat = true := decide_eq_true hlen
      rwa [hlarge, EnhancedPageAllocator.pageSize, if_pos rfl] at hstop
  · rw [h.step_refused hgrant, Option.some.injEq] at hstep
    exact hstep ▸ h

/-- A huge-page block starts above everything handed out before. -/
theorem Tracked.nextBlock_apart_of_large {client : Client} (h : client.Tracked) {size : UInt64}
    (hlarge : LARGE_PAGE_THRESHOLD ≤ size.toNat) : ∀ b ∈ client.blocks, (client.nextBlock size).Apart b := by
  intro b hb
  rw [nextBlock_of_large client hlarge, Extent.apart_iff]
  refine .inr (.inr (.inr ?_))
  by_cases hlen : LARGE_PAGE_THRESHOLD ≤ b.len
  · exact h.large_stop b hb hlen
  · have hscale : PAGE_SIZE ≤ HUGE_PAGE_SIZE := by decide
    exact (h.small_stop b hb (not_le.mp hlen)).trans
      (Nat.add_le_add_left (Nat.mul_le_mul_left _ hscale) _)

/-- A smaller block starts above the smaller ones. -/
theorem Tracked.nextBlock_apart_of_small {client : Client} (h : client.Tracked) {size : UInt64}
    (hsmall : size.toNat < LARGE_PAGE_THRESHOLD) :
    (∀ b ∈ client.blocks, (client.nextBlock size).Apart b) ↔
      ∀ b ∈ client.blocks, LARGE_PAGE_THRESHOLD ≤ b.len → (client.nextBlock size).Apart b := by
  constructor
  · intro hapart b hb _
    exact hapart b hb
  · intro hlarge b hb
    by_cases hlen : LARGE_PAGE_THRESHOLD ≤ b.len
    · exact hlarge b hb hlen
    · rw [nextBlock_of_small client hsmall, Extent.apart_iff]
      exact .inr (.inr (.inr (h.small_stop b hb (not_le.mp hlen))))

/-- A granted call keeps the blocks separate exactly when its block is apart
from them and ends inside the region. -/
theorem Tracked.separate_granted_iff {client after : Client} (h : client.Tracked)
    (hsep : client.Separate) {size : UInt64}
    (hgrant : client.manager.pageAllocator.Grants size.toNat (usesHugePages size.toNat))
    (hstep : client.step size = some after) :
    after.Separate ↔ (∀ b ∈ client.blocks, (client.nextBlock size).Apart b) ∧
      (client.nextBlock size).stop ≤ 0x100000 + 4194304 * PAGE_SIZE := by
  obtain ⟨after', hstep', hblocks, hstart, htotal, _⟩ := h.step_granted size hgrant
  obtain rfl : after' = after := by simpa [hstep'] using hstep
  constructor
  · rintro ⟨hapart, hinside⟩
    rw [hblocks] at hapart hinside
    rw [hstart, htotal] at hinside
    exact ⟨(List.pairwise_cons.mp hapart).1, (hinside _ List.mem_cons_self).2⟩
  · rintro ⟨hapart, hstop⟩
    refine ⟨hblocks ▸ List.pairwise_cons.mpr ⟨hapart, hsep.apart⟩, ?_⟩
    rw [hblocks, hstart, htotal]
    refine List.forall_mem_cons.mpr ⟨⟨Nat.le_add_right _ _, hstop⟩, fun b hb => ?_⟩
    have hinside := hsep.inside b hb
    rwa [h.memoryStart, h.totalPages] at hinside

/-- From a state whose blocks are separate, a call keeps them separate exactly
when it fits. -/
theorem Tracked.separate_step_iff {client after : Client} (h : client.Tracked)
    (hsep : client.Separate) {size : UInt64} (hstep : client.step size = some after) :
    after.Separate ↔ client.Fits size := by
  by_cases hgrant : client.manager.pageAllocator.Grants size.toNat (usesHugePages size.toNat)
  · have hroom := hgrant.2
    have hstop := client.nextBlock_stop_le hgrant.1
    rw [h.separate_granted_iff hsep hgrant hstep, Fits, imp_iff_right hgrant, h.totalPages]
    rw [h.totalPages] at hroom
    by_cases hlarge : LARGE_PAGE_THRESHOLD ≤ size.toNat
    · rw [if_pos hlarge, and_iff_right (h.nextBlock_apart_of_large hlarge), nextBlock_of_large client hlarge,
        Extent.stop, Nat.add_assoc]
      exact Nat.add_le_add_iff_left
    · -- the pages of a small block lie inside the region
      have hsmall : size.toNat < LARGE_PAGE_THRESHOLD := not_le.mp hlarge
      have hmode : usesHugePages size.toNat = false := decide_eq_false hlarge
      have hinside : (client.nextBlock size).stop ≤ 0x100000 + 4194304 * PAGE_SIZE := by
        refine hstop.trans (Nat.add_le_add_left ?_ _)
        rw [hmode] at hroom ⊢
        exact Nat.mul_le_mul_right PAGE_SIZE hroom
      rw [if_neg hlarge, and_iff_left hinside, h.nextBlock_apart_of_small hsmall, h.memoryStart,
        nextBlock_of_small client hsmall]
  · rw [h.step_refused hgrant, Option.some.injEq] at hstep
    subst hstep
    exact iff_of_true hsep fun hyes => absurd hyes hgrant

theorem initialized_separate : initialized.Separate where
  apart := .nil
  inside := by simp [initialized]

/-- The blocks of a run are separate in every state exactly when all its calls
fit. -/
theorem always_separate_iff_fits (sizes : List UInt64) :
    Always step Separate initialized sizes ↔ Guarded step Fits initialized sizes :=
  always_iff_guarded Tracked (fun _ _ _ h hstep => h.step hstep)
    (fun _ _ _ h hsep hstep => h.separate_step_iff hsep hstep) sizes
    initialized_tracked initialized_separate

/-- A page handed out after a huge page lies inside it: the huge page took one
bit, and the second bit stands for its second 4 KiB. -/
theorem page_inside_huge_page :
    ¬ Always step Separate initialized [LARGE_PAGE_THRESHOLD.toUInt64, PAGE_SIZE.toUInt64] := by
  rintro ⟨_, h⟩
  obtain ⟨first, hfirst, hblocks, hstart, htotal, hused, _⟩ :=
    initialized_tracked.step_granted LARGE_PAGE_THRESHOLD.toUInt64 (by decide)
  obtain ⟨hsep, h⟩ := h first hfirst
  have htracked := initialized_tracked.step hfirst
  have hone : first.manager.pageAllocator.usedPages = 1 := hused
  have hgrant : first.manager.pageAllocator.Grants PAGE_SIZE.toUInt64.toNat
      (usesHugePages PAGE_SIZE.toUInt64.toNat) := by
    rw [EnhancedPageAllocator.Grants, hone, htotal]
    decide
  obtain ⟨second, hsecond, _⟩ := htracked.step_granted _ hgrant
  have hfits := (htracked.separate_step_iff hsep hsecond).mp (h second hsecond).1 hgrant
  rw [if_neg (by decide), hstart, hone, hblocks] at hfits
  have hapart := hfits _ List.mem_cons_self (by decide)
  exact absurd hapart (by decide)

end Client

end EnhancedMemoryManager

end Kernel.Memory
