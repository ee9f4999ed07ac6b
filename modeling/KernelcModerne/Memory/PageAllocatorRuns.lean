import KernelcModerne.Lib.Transition
import KernelcModerne.Memory.PageAllocator

open Transition

namespace Kernel.Memory.PageAllocator

/-- A granted request as its owner knows it: the address returned and the size
asked for. -/
structure Allocation where
  address : Nat
  size : Nat
  deriving DecidableEq

/-- An allocator and the allocations its callers have not freed yet. -/
structure Client where
  allocator : PageAllocator
  live : List Allocation

inductive Op where
  | allocate (size : UInt64)
  | free (allocation : Allocation)

namespace Client

def initialized (start memorySize : UInt64) : Client where
  allocator := .initialized start.toNat memorySize.toNat
  live := []

/-- One call. `free` is called for a live allocation, with the arguments it was
made with, and ends it; other calls of `free` are no steps. -/
def step (client : Client) : Op → Option Client
  | .allocate size =>
    (client.allocator.allocate size.toNat).map fun
      | (allocator, some address) => { allocator, live := ⟨address, size.toNat⟩ :: client.live }
      | (allocator, none) => { client with allocator }
  | .free allocation =>
    if allocation ∈ client.live then
      (client.allocator.free allocation.address allocation.size).map fun allocator =>
        { allocator, live := client.live.erase allocation }
    else none

/-- The pages that hold the `size` bytes of an allocation. -/
def pages (client : Client) (allocation : Allocation) : Extent where
  start := client.allocator.getPageIndex allocation.address
  len := (allocation.size + (PAGE_SIZE - 1)) / PAGE_SIZE

/-- The live allocations, the bits of the buffer and the counter agree, and no
further call leaves the buffer. -/
structure Consistent (client : Client) : Prop where
  apart : client.live.Pairwise fun a b => (client.pages a).Apart (client.pages b)
  inside : ∀ a ∈ client.live, (client.pages a).stop ≤ client.allocator.totalPages
  bits : ∀ i < client.allocator.totalPages,
    client.allocator.bitmap.getBit i = some (decide (∃ a ∈ client.live, i ∈ (client.pages a).cells))
  freePages : client.allocator.freePages = ((Finset.range client.allocator.totalPages).filter
    fun i => client.allocator.bitmap.getBit i = some false).card
  allocate_defined : ∀ size : UInt64, (client.allocator.allocate size.toNat).isSome
  free_defined : ∀ a ∈ client.live, (client.allocator.free a.address a.size).isSome

/-- The allocator holds the packing made of the live allocations' pages. -/
def Refines (client : Client) : Prop :=
  ∃ p : Packing client.allocator.totalPages, client.allocator.Holds p ∧
    p.live.Perm (client.live.map client.pages) ∧
    ∀ a ∈ client.live, pageCount a.size = (client.pages a).len

private theorem initialized_refines (start memorySize : UInt64) :
    (initialized start memorySize).Refines :=
  ⟨.empty _, initialized_holds memorySize.toNat_lt, .nil, by simp [initialized]⟩

/-- A request that asks for any page did not wrap around. -/
private theorem pageCount_eq {size : Nat} (hpos : 0 < pageCount size) (hsize : size < 2 ^ 64) :
    pageCount size = (size + (PAGE_SIZE - 1)) / PAGE_SIZE := by
  unfold pageCount Word64.add PAGE_SIZE at *
  omega

theorem Refines.allocate {client after : Client} (h : client.Refines) {size : UInt64}
    (hstep : client.step (.allocate size) = some after) : after.Refines := by
  obtain ⟨p, hholds, hperm, hcount⟩ := h
  cases allocate_spec hholds size.toNat with
  | inr hrefused =>
    simp only [step, hrefused.1, Option.map_some, Option.some.injEq] at hstep
    subst hstep
    exact ⟨p, hholds, hperm, hcount⟩
  | inl hgranted =>
    obtain ⟨startPage, bitmap, placed, hgrant, hfit, hplaced, hafter⟩ := hgranted
    simp only [step, hgrant, Option.map_some, Option.some.injEq] at hstep
    subst hstep
    have hpos : 0 < pageCount size.toNat := placed.nonempty ⟨startPage, pageCount size.toNat⟩ (by simp [hplaced])
    have hstop : startPage + pageCount size.toNat ≤ client.allocator.totalPages :=
      placed.inside ⟨startPage, pageCount size.toNat⟩ (by simp [hplaced])
    have hpages := hholds.pages_le
    have hlen := pageCount_eq hpos size.toNat_lt
    refine ⟨placed, hafter, ?_, List.forall_mem_cons.mpr ⟨hlen, hcount⟩⟩
    have hstart := client.allocator.getPageIndex_address startPage (by omega)
    rw [hplaced, List.map_cons]
    have hhead : (Extent.mk startPage (pageCount size.toNat)) = ⟨_, _⟩ :=
      Extent.ext hstart.symm hlen
    rw [hhead]
    exact hperm.cons _

theorem Refines.live_pages {client : Client} (h : client.Refines) {a : Allocation}
    (ha : a ∈ client.live) : ∃ p : Packing client.allocator.totalPages,
      client.allocator.Holds p ∧ p.live.Perm (client.live.map client.pages) ∧
      client.pages a = ⟨client.allocator.getPageIndex a.address, pageCount a.size⟩ ∧
      client.pages a ∈ p.live := by
  obtain ⟨p, hholds, hperm, hcount⟩ := h
  refine ⟨p, hholds, hperm, Extent.ext rfl (hcount a ha).symm, ?_⟩
  exact hperm.mem_iff.mpr (List.mem_map_of_mem ha)

theorem Refines.free {client after : Client} (h : client.Refines) {a : Allocation}
    (hstep : client.step (.free a) = some after) : after.Refines := by
  by_cases ha : a ∈ client.live
  · obtain ⟨p, hholds, hperm, hpages, hmem⟩ := h.live_pages ha
    obtain ⟨bitmap, hfree, hafter⟩ := free_spec hholds (hpages ▸ hmem)
    simp only [step, if_pos ha, hfree, Option.map_some, Option.some.injEq] at hstep
    subst hstep
    refine ⟨_, hafter, ?_, ?_⟩
    · rw [← hpages]
      have hsplit := (List.perm_cons_erase ha).map client.pages
      have herase := (hperm.trans hsplit).erase (client.pages a)
      rwa [List.map_cons, List.erase_cons_head] at herase
    · obtain ⟨_, _, _, hcount⟩ := h
      exact fun b hb => hcount b (List.mem_of_mem_erase hb)
  · simp [step, ha] at hstep

theorem Refines.step {client after : Client} (h : client.Refines) (op : Op)
    (hstep : client.step op = some after) : after.Refines := by
  cases op with
  | allocate size => exact h.allocate hstep
  | free allocation => exact h.free hstep

/-- What holds a packing is consistent. -/
theorem Refines.consistent {client : Client} (h : client.Refines) : client.Consistent := by
  obtain ⟨p, hholds, hperm, hcount⟩ := id h
  have hcovers (i : Nat) : p.Covers i ↔ ∃ a ∈ client.live, i ∈ (client.pages a).cells := by
    simp [Packing.Covers, hperm.mem_iff]
  have hcovered := hholds.covered
  have hread (i : Nat) (hi : i < client.allocator.totalPages) :
      client.allocator.bitmap.getBit i = some (client.allocator.bitmap.bit i) :=
    PageBitmap.getBit_eq_bit (by omega)
  refine ⟨?_, ?_, ?_, ?_, ?_, ?_⟩
  · have hpair := (hperm.pairwise_iff fun h => Extent.Apart.symm h).mp p.apart
    exact List.pairwise_map.mp hpair
  · intro a ha
    exact p.inside _ (hperm.mem_iff.mpr (List.mem_map_of_mem ha))
  · intro i hi
    rw [hread i hi, Option.some.injEq, Bool.eq_iff_iff, decide_eq_true_eq, ← hcovers]
    exact hholds.bits i hi
  · rw [hholds.free, ← hholds.bits.card_clear]
    congr 1
    ext i
    simp only [Finset.mem_filter, Finset.mem_range]
    refine and_congr_right fun hi => ?_
    rw [hread i hi, Option.some.injEq]
  · intro size
    cases allocate_spec hholds size.toNat with
    | inl hgranted =>
      obtain ⟨_, _, _, hgrant, _⟩ := hgranted
      simp [hgrant]
    | inr hrefused => simp [hrefused.1]
  · intro a ha
    obtain ⟨p, hholds, _, hpages, hmem⟩ := h.live_pages ha
    obtain ⟨_, hfree, _⟩ := free_spec hholds (hpages ▸ hmem)
    simp [hfree]

theorem always_refines (start memorySize : UInt64) (ops : List Op) :
    Always step Refines (initialized start memorySize) ops :=
  always_of_step (fun _ op _ h hstep => h.step op hstep) ops (initialized_refines start memorySize)

/-- From `initialize` on, every run of `allocate` and `free` stays consistent. -/
theorem always_consistent (start memorySize : UInt64) (ops : List Op) :
    Always step Consistent (initialized start memorySize) ops :=
  (always_refines start memorySize ops).imp fun _ h => h.consistent

end Client

end Kernel.Memory.PageAllocator
