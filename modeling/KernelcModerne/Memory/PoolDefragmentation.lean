import KernelcModerne.Lib.Sliding
import KernelcModerne.Memory.PoolRuns

namespace Kernel.Memory.OptimizedUnifiedMemoryManager

/-- The bytes of an allocation. -/
def block (allocation : Nat × Nat) : Extent := ⟨allocation.1, allocation.2⟩

/-- The live allocations of the pool share no byte and lie inside it. -/
structure InBounds (manager : OptimizedUnifiedMemoryManager) (index : Fin POOL_COUNT) : Prop where
  region : (manager.pools index).start + (manager.pools index).size < 2 ^ 64
  inside : ∀ a ∈ manager.liveAllocations index, (manager.pools index).start ≤ a.1 ∧
    a.1 + a.2 ≤ (manager.pools index).start + (manager.pools index).size
  apart : (manager.liveAllocations index).Pairwise fun a b => (block a).Apart (block b)

/-- None of the allocations is empty, and no other pool has an entry inside this
one. -/
structure Compactable (manager : OptimizedUnifiedMemoryManager) (index : Fin POOL_COUNT) : Prop
    extends manager.InBounds index where
  positive : ∀ a ∈ manager.liveAllocations index, 0 < a.2
  outside : ∀ ptr info, manager.poolAllocations.lookup ptr = some info → info.poolIndex ≠ index →
    ptr < (manager.pools index).start ∨ (manager.pools index).start + (manager.pools index).size ≤ ptr

/-- Each allocation starts where the sizes of those before it end. -/
def Contiguous (dest : Nat) (allocations : List (Nat × Nat)) : Prop :=
  ∀ before allocation after, allocations = before ++ allocation :: after →
    allocation.1 = dest + sizeSum before

variable {manager : OptimizedUnifiedMemoryManager} {index : Fin POOL_COUNT}

/-- `std::sort` leaves the allocations in ascending order of address. -/
theorem sorted_liveAllocations (manager : OptimizedUnifiedMemoryManager) (index : Fin POOL_COUNT) :
    (manager.liveAllocations index).Pairwise fun a b => a.1 < b.1 := by
  have htotal : Std.Total fun a b : Nat × Nat => a.1 < b.1 ∨ a.1 = b.1 ∧ a.2 ≤ b.2 := ⟨fun a b => by omega⟩
  have htrans : IsTrans (Nat × Nat) fun a b => a.1 < b.1 ∨ a.1 = b.1 ∧ a.2 ≤ b.2 := ⟨fun a b c _ _ => by omega⟩
  have hnodup := List.pairwise_map.mp (nodup_liveAllocations manager index)
  refine (List.Pairwise.and (List.pairwise_insertionSort _ _) hnodup).imp fun h => ?_
  have hne := h.2
  omega

/-- Ascending lists with the same members are the same. -/
theorem eq_of_ascending {first second : List (Nat × Nat)} (hfirst : first.Pairwise fun a b => a.1 < b.1)
    (hsecond : second.Pairwise fun a b => a.1 < b.1) (hmem : ∀ a, a ∈ first ↔ a ∈ second) : first = second := by
  have hnodup {list : List (Nat × Nat)} (h : list.Pairwise fun a b => a.1 < b.1) : list.Nodup :=
    h.imp fun hlt heq => by
      subst heq
      omega
  have hperm := (List.perm_ext_iff_of_nodup (hnodup hfirst) (hnodup hsecond)).mpr hmem
  exact hperm.eq_of_pairwise (fun a b _ _ hab hba => absurd hab (by omega)) hfirst hsecond

theorem InBounds.slidable (h : manager.InBounds index) :
    Extent.Slidable (manager.pools index).start ((manager.liveAllocations index).map block) := by
  refine .of_sorted ?_ (List.pairwise_map.mpr h.apart) (List.pairwise_map.mpr ?_)
  · intro e he
    obtain ⟨a, ha, rfl⟩ := List.mem_map.mp he
    exact (h.inside a ha).1
  · exact (sorted_liveAllocations manager index).imp fun hlt => Nat.le_of_lt hlt

/-- The allocations when they are moved down to `dest`. -/
def slidTo (dest : Nat) (allocations : List (Nat × Nat)) : List (Nat × Nat) :=
  (Extent.slide dest (allocations.map block)).map fun e => (e.start, e.len)

/-- The compaction loop of a pool after the blocks `placed` and before those in
`rest`: the entries of the pool are these, those of the other pools the ones
recorded before. -/
structure Sliding (manager : OptimizedUnifiedMemoryManager) (index : Fin POOL_COUNT)
    (placed rest : List (Nat × Nat)) (c : Compaction) : Prop where
  slidable : Extent.Slidable c.dest (rest.map block)
  start_le : (manager.pools index).start ≤ c.dest
  inside : ∀ a ∈ rest, a.1 + a.2 ≤ (manager.pools index).start + (manager.pools index).size
  positive : ∀ a ∈ rest, 0 < a.2
  below : ∀ a ∈ placed, a.1 < c.dest
  own : ∀ ptr size, c.poolAllocations.lookup ptr = some ⟨index, size⟩ ↔
    (ptr, size) ∈ placed ∨ (ptr, size) ∈ rest
  other : ∀ ptr info, info.poolIndex ≠ index →
    (c.poolAllocations.lookup ptr = some info ↔ manager.poolAllocations.lookup ptr = some info)

variable {placed rest : List (Nat × Nat)} {ptr size : Nat} {c : Compaction}

/-- The blocks placed lie below `dest`, the next block from there on, and the
others above it. -/
theorem Sliding.bounds (h : Sliding manager index placed ((ptr, size) :: rest) c) :
    0 < size ∧ c.dest ≤ ptr ∧ ∀ a ∈ rest, ptr + size ≤ a.1 := by
  have hpositive := h.positive (ptr, size) List.mem_cons_self
  have habove := h.slidable.above (block (ptr, size)) List.mem_cons_self
  refine ⟨hpositive, habove.resolve_left (Nat.ne_of_gt hpositive), fun a ha => ?_⟩
  have hordered := (List.pairwise_cons.mp h.slidable.ordered).1 (block a) (List.mem_map_of_mem ha)
  have hpos := h.positive a (List.mem_cons_of_mem _ ha)
  simp only [block, Extent.stop] at hordered
  simp only at hpositive
  omega

theorem lookup_move_of_ne {key : Nat} (hptr : ptr ≠ c.dest) (hkey : key ≠ ptr) (hat : key ≠ c.dest) :
    (c.move index (ptr, size)).poolAllocations.lookup key = c.poolAllocations.lookup key := by
  rw [Compaction.move_of_ne hptr, AList.lookup_erase_ne hkey, AList.lookup_insert_ne hat]

theorem lookup_move_dest (hptr : ptr ≠ c.dest) :
    (c.move index (ptr, size)).poolAllocations.lookup c.dest = some ⟨index, size⟩ := by
  rw [Compaction.move_of_ne hptr, AList.lookup_erase_ne (Ne.symm hptr), AList.lookup_insert]

theorem lookup_move_ptr (hptr : ptr ≠ c.dest) :
    (c.move index (ptr, size)).poolAllocations.lookup ptr = none := by
  rw [Compaction.move_of_ne hptr]
  exact AList.lookup_erase _ _

/-- The block's entry moves to `dest`, where no other block has one. -/
theorem Sliding.own_move (h : Sliding manager index placed ((ptr, size) :: rest) c) (key size' : Nat) :
    (c.move index (ptr, size)).poolAllocations.lookup key = some ⟨index, size'⟩ ↔
      (key, size') ∈ placed ++ [(c.dest, size)] ∨ (key, size') ∈ rest := by
  obtain ⟨hsize, hdest, habove⟩ := h.bounds
  rw [List.mem_append, List.mem_singleton, Prod.mk.injEq]
  by_cases hptr : ptr = c.dest
  · rw [Compaction.move_of_eq hptr, h.own, List.mem_cons, Prod.mk.injEq, hptr, or_assoc]
  · by_cases hkey : key = ptr
    · subst hkey
      rw [lookup_move_ptr hptr]
      refine iff_of_false (by simp) ?_
      rintro ((hplaced | hnext) | hrest)
      · exact absurd (h.below _ hplaced) (not_lt.mpr hdest)
      · exact hptr hnext.1
      · have hle := habove _ hrest
        simp only at hle
        omega
    · by_cases hat : key = c.dest
      · subst hat
        rw [lookup_move_dest hptr, Option.some.injEq, PoolAllocationInfo.mk.injEq]
        constructor
        · rintro ⟨-, rfl⟩
          exact .inl (.inr ⟨rfl, rfl⟩)
        · rintro ((hplaced | hnext) | hrest)
          · exact absurd (h.below _ hplaced) (lt_irrefl _)
          · exact ⟨rfl, hnext.2.symm⟩
          · have hle := habove _ hrest
            simp only at hle
            omega
      · rw [lookup_move_of_ne hptr hkey hat, h.own, List.mem_cons, Prod.mk.injEq]
        simp only [hkey, hat, false_and, or_false, false_or]

/-- The entries of the other pools lie outside this one, where nothing is
moved. -/
theorem Sliding.other_move (h : Sliding manager index placed ((ptr, size) :: rest) c)
    (hcompact : manager.Compactable index) (key : Nat) (info : PoolAllocationInfo)
    (hother : info.poolIndex ≠ index) : (c.move index (ptr, size)).poolAllocations.lookup key = some info ↔
      manager.poolAllocations.lookup key = some info := by
  obtain ⟨hsize, hdest, _⟩ := h.bounds
  have hinside := h.inside (ptr, size) List.mem_cons_self
  have hstart := h.start_le
  simp only at hinside
  by_cases hptr : ptr = c.dest
  · rw [Compaction.move_of_eq hptr]
    exact h.other key info hother
  · by_cases hkey : key = ptr
    · subst hkey
      rw [lookup_move_ptr hptr]
      refine iff_of_false (by simp) fun hlookup => ?_
      have houtside := hcompact.outside key info hlookup hother
      omega
    · by_cases hat : key = c.dest
      · subst hat
        rw [lookup_move_dest hptr]
        have hindex (heq : some ⟨index, size⟩ = some info) : info.poolIndex = index :=
          (congrArg PoolAllocationInfo.poolIndex (Option.some.inj heq)).symm
        refine iff_of_false (fun heq => hother (hindex heq)) fun hlookup => ?_
        have houtside := hcompact.outside c.dest info hlookup hother
        omega
      · rw [lookup_move_of_ne hptr hkey hat]
        exact h.other key info hother

theorem Sliding.move_dest (h : Sliding manager index placed ((ptr, size) :: rest) c)
    (hcompact : manager.Compactable index) : (c.move index (ptr, size)).dest = c.dest + size := by
  obtain ⟨_, hdest, _⟩ := h.bounds
  have hinside := h.inside (ptr, size) List.mem_cons_self
  have hregion := hcompact.region
  simp only at hinside
  rw [c.move_dest]
  exact Word64.add_eq_of_lt (by omega)

/-- One block of the loop. -/
theorem Sliding.move (h : Sliding manager index placed ((ptr, size) :: rest) c)
    (hcompact : manager.Compactable index) :
    Sliding manager index (placed ++ [(c.dest, size)]) rest (c.move index (ptr, size)) := by
  have hmoved := h.move_dest hcompact
  refine ⟨hmoved ▸ h.slidable.tail, hmoved ▸ h.start_le.trans (Nat.le_add_right _ _),
    fun a ha => h.inside a (List.mem_cons_of_mem _ ha), fun a ha => h.positive a (List.mem_cons_of_mem _ ha),
    fun a ha => ?_, h.own_move, h.other_move hcompact⟩
  rw [hmoved]
  cases List.mem_append.mp ha with
  | inl hplaced => exact (h.below a hplaced).trans_le (Nat.le_add_right _ _)
  | inr hlast =>
    rw [List.mem_singleton.mp hlast]
    exact Nat.lt_add_of_pos_right h.bounds.1

/-- The whole loop. -/
theorem Sliding.run (h : Sliding manager index placed rest c) (hcompact : manager.Compactable index) :
    Sliding manager index (placed ++ slidTo c.dest rest) []
        (rest.foldl (fun c allocation => c.move index allocation) c) ∧
      (rest.foldl (fun c allocation => c.move index allocation) c).dest = c.dest + sizeSum rest := by
  induction rest generalizing placed c with
  | nil => exact ⟨(List.append_nil placed).symm ▸ h, rfl⟩
  | cons allocation rest ih =>
    obtain ⟨ptr, size⟩ := allocation
    have hmoved := h.move_dest hcompact
    obtain ⟨hrun, hend⟩ := ih (h.move hcompact)
    rw [List.append_assoc, List.singleton_append, hmoved] at hrun
    rw [hmoved, Nat.add_assoc] at hend
    exact ⟨hrun, hend⟩

theorem map_snd_slidTo (dest : Nat) (allocations : List (Nat × Nat)) :
    (slidTo dest allocations).map Prod.snd = allocations.map Prod.snd := by
  rw [slidTo, List.map_map]
  exact (Extent.map_len_slide dest _).trans (List.map_map ..)

theorem sizeSum_slidTo (dest : Nat) (allocations : List (Nat × Nat)) :
    sizeSum (slidTo dest allocations) = sizeSum allocations :=
  congrArg List.sum (map_snd_slidTo dest allocations)

theorem contiguous_slidTo (dest : Nat) (allocations : List (Nat × Nat)) :
    Contiguous dest (slidTo dest allocations) := by
  intro before allocation after hsplit
  obtain ⟨front, tail, hslide, hfront, htail⟩ := List.map_eq_append_iff.mp hsplit
  obtain ⟨e, back, rfl, rfl, hback⟩ := List.map_eq_cons_iff.mp htail
  rw [Extent.start_of_slide_eq hslide, ← hfront, sizeSum, List.map_map]
  rfl

theorem ascending_slidTo (dest : Nat) {allocations : List (Nat × Nat)}
    (hpositive : ∀ a ∈ allocations, 0 < a.2) : (slidTo dest allocations).Pairwise fun a b => a.1 < b.1 := by
  refine List.pairwise_map.mpr ((Extent.slide_ordered dest _).imp_of_mem fun {e other} he _ hle => ?_)
  have hlen : e.len ∈ allocations.map Prod.snd := by
    rw [← map_snd_slidTo dest allocations, slidTo, List.map_map]
    exact List.mem_map_of_mem he
  obtain ⟨a, ha, hsize⟩ := List.mem_map.mp hlen
  have hpos := hpositive a ha
  unfold Extent.stop at hle
  simp only
  omega

/-- The loop over all live allocations. -/
theorem Compactable.compact (h : manager.Compactable index) :
    Sliding manager index (slidTo (manager.pools index).start (manager.liveAllocations index)) []
        (manager.compact index) ∧
      (manager.compact index).dest = (manager.pools index).start + sizeSum (manager.liveAllocations index) := by
  have hstart : Sliding manager index [] (manager.liveAllocations index)
      ⟨manager.poolAllocations, (manager.pools index).start, []⟩ := by
    refine ⟨h.slidable, le_refl _, fun a ha => (h.inside a ha).2, h.positive,
      fun a ha => absurd ha List.not_mem_nil, fun ptr size => ?_, fun _ _ _ => Iff.rfl⟩
    simp [mem_liveAllocations]
  exact hstart.run h

theorem InBounds.sizeSum_le (h : manager.InBounds index) :
    sizeSum (manager.liveAllocations index) ≤ (manager.pools index).size := by
  have hlow : ∀ e ∈ (manager.liveAllocations index).map block, (manager.pools index).start ≤ e.start := by
    intro e he
    obtain ⟨a, ha, rfl⟩ := List.mem_map.mp he
    exact (h.inside a ha).1
  have hhigh : ∀ e ∈ (manager.liveAllocations index).map block,
      e.stop ≤ (manager.pools index).start + (manager.pools index).size := by
    intro e he
    obtain ⟨a, ha, rfl⟩ := List.mem_map.mp he
    exact (h.inside a ha).2
  have hsum := Extent.sum_len_le (List.pairwise_map.mpr h.apart) hlow hhigh
  rw [List.map_map, Nat.add_sub_cancel_left] at hsum
  exact hsum

/-- Compaction leaves the blocks of the pool with their sizes in their order, one
behind the other from the start of the pool on, and the other pools alone. -/
theorem defragmentPool_compacts (h : manager.Compactable index)
    (hshould : (manager.pools index).fragmentationMetrics.shouldDefragment = true) :
    ((manager.defragmentPool index).liveAllocations index).map Prod.snd =
        (manager.liveAllocations index).map Prod.snd ∧
      Contiguous (manager.pools index).start ((manager.defragmentPool index).liveAllocations index) ∧
      ((manager.defragmentPool index).pools index).used =
        sizeSum ((manager.defragmentPool index).liveAllocations index) ∧
      ∀ ptr info, info.poolIndex ≠ index →
        ((manager.defragmentPool index).poolAllocations.lookup ptr = some info ↔
          manager.poolAllocations.lookup ptr = some info) := by
  obtain ⟨hsliding, hdest⟩ := h.compact
  have htable : (manager.defragmentPool index).poolAllocations = (manager.compact index).poolAllocations := by
    simp [defragmentPool, hshould]
  have hused : ((manager.defragmentPool index).pools index).used =
      Word64.sub (manager.compact index).dest (manager.pools index).start := by
    simp [defragmentPool, hshould]
  have hlive : (manager.defragmentPool index).liveAllocations index =
      slidTo (manager.pools index).start (manager.liveAllocations index) := by
    refine eq_of_ascending (sorted_liveAllocations _ index) (ascending_slidTo _ h.positive) fun a => ?_
    rw [mem_liveAllocations, htable, hsliding.own]
    simp
  have hroom := h.sizeSum_le
  have hregion := h.region
  rw [hlive, hused, hdest, map_snd_slidTo, sizeSum_slidTo, Word64.sub_eq_of_le (by omega) (by omega),
    Nat.add_sub_cancel_left, htable]
  exact ⟨rfl, contiguous_slidTo _ _, rfl, hsliding.other⟩

/-- The pool of four MiB after its first block of more than a MiB was freed below
one of `size` bytes. -/
def gapBelow (size : Nat) : OptimizedUnifiedMemoryManager :=
  let first := (initialized Client.spreadLayout.start 0 0).allocateMemory
    ⟨.HIGH_PERFORMANCE, 0, fun _ => 0⟩ 0x100040
  (first.1.allocateMemory ⟨.HIGH_PERFORMANCE, 0, fun _ => 0⟩ size).1.releaseBlock 0x2000000 ⟨3, 0x100040⟩

theorem gapBelow_compactable : (gapBelow 64).Compactable 3 where
  region := by decide
  inside := by decide
  apart := by decide
  positive := by decide
  outside ptr info hlookup hother := by
    have hentries : ∀ e ∈ (gapBelow 64).poolAllocations.entries, e.2.poolIndex = 3 := by decide
    exact absurd (hentries _ (AList.mem_lookup_iff.mp (Option.mem_def.mpr hlookup))) hother

/-- A block of a cache line moves down to the start of the pool. -/
theorem defragmentPool_gapBelow :
    (((gapBelow 64).defragmentPool 3).liveAllocations 3).map Prod.snd =
        ((gapBelow 64).liveAllocations 3).map Prod.snd ∧
      Contiguous ((gapBelow 64).pools 3).start (((gapBelow 64).defragmentPool 3).liveAllocations 3) ∧
      (((gapBelow 64).defragmentPool 3).pools 3).used =
        sizeSum (((gapBelow 64).defragmentPool 3).liveAllocations 3) ∧
      ∀ ptr info, info.poolIndex ≠ 3 →
        (((gapBelow 64).defragmentPool 3).poolAllocations.lookup ptr = some info ↔
          (gapBelow 64).poolAllocations.lookup ptr = some info) :=
  defragmentPool_compacts gapBelow_compactable (by decide)

end Kernel.Memory.OptimizedUnifiedMemoryManager
