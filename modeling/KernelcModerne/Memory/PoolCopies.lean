import KernelcModerne.Memory.PoolDefragmentation

namespace Kernel.Memory.OptimizedUnifiedMemoryManager

/-- The memory after a call of `memcpy`, where the call is defined. -/
def Copy.run (copy : Copy) (memory : Nat → UInt8) : Option (Nat → UInt8) :=
  Extent.memcpy memory copy.dest copy.src copy.size

def runCopies (copies : List Copy) (memory : Nat → UInt8) : Option (Nat → UInt8) :=
  copies.foldlM (fun memory copy => copy.run memory) memory

/-- The calls of `memcpy` that the compaction makes. -/
def issuedCopies (manager : OptimizedUnifiedMemoryManager) (index : Fin POOL_COUNT) : List Copy :=
  (manager.defragmentPool index).copies.drop manager.copies.length

/-- Where a block lies after `defragmentPool`, above the blocks `below`. -/
def placeAfter (manager : OptimizedUnifiedMemoryManager) (index : Fin POOL_COUNT) (below : List (Nat × Nat))
    (allocation : Nat × Nat) : Nat :=
  if (manager.pools index).fragmentationMetrics.shouldDefragment then
    (manager.pools index).start + sizeSum below
  else allocation.1

/-- Each `memcpy` that `defragmentPool` issues is defined, and the live blocks
have the bytes that they had in `memory`. -/
structure KeepsContents (manager : OptimizedUnifiedMemoryManager) (index : Fin POOL_COUNT)
    (memory : Nat → UInt8) : Prop where
  disjoint : ∀ copy ∈ manager.issuedCopies index, (Extent.mk copy.dest copy.size).Apart ⟨copy.src, copy.size⟩
  bytes : ∃ after, runCopies (manager.issuedCopies index) memory = some after ∧
    ∀ below allocation above, manager.liveAllocations index = below ++ allocation :: above →
      ∀ i < allocation.2, after (manager.placeAfter index below allocation + i) = memory (allocation.1 + i)

/-- Where the pool is compacted, each block stays in place or slides by at least
its size. -/
def SlidesClear (manager : OptimizedUnifiedMemoryManager) (index : Fin POOL_COUNT) : Prop :=
  (manager.pools index).fragmentationMetrics.shouldDefragment = true →
    Extent.ClearSlide (manager.pools index).start ((manager.liveAllocations index).map block)

variable {manager : OptimizedUnifiedMemoryManager} {index : Fin POOL_COUNT} {memory after : Nat → UInt8}

theorem disjoint_of_runCopies {copies : List Copy} (hrun : runCopies copies memory = some after) :
    ∀ copy ∈ copies, (Extent.mk copy.dest copy.size).Apart ⟨copy.src, copy.size⟩ := by
  induction copies generalizing memory with
  | nil => exact fun copy hcopy => absurd hcopy List.not_mem_nil
  | cons copy rest ih =>
    rw [runCopies, List.foldlM_cons] at hrun
    obtain ⟨middle, hfirst, hrest⟩ := Option.bind_eq_some_iff.mp hrun
    refine List.forall_mem_cons.mpr ⟨?_, ih hrest⟩
    by_contra hover
    rw [Copy.run, Extent.memcpy, if_neg hover] at hfirst
    cases hfirst

/-- The loop issues the copies that slide the blocks down. -/
theorem foldl_move_copies (index : Fin POOL_COUNT) (rest : List (Nat × Nat)) {c : Compaction}
    (hroom : c.dest + sizeSum rest < 2 ^ 64) :
    ∃ issued, (rest.foldl (fun c allocation => c.move index allocation) c).copies = c.copies ++ issued ∧
      ∀ memory, runCopies issued memory = Extent.slideDown c.dest (rest.map block) memory := by
  induction rest generalizing c with
  | nil => exact ⟨[], (List.append_nil _).symm, fun _ => rfl⟩
  | cons allocation rest ih =>
    obtain ⟨ptr, size⟩ := allocation
    rw [sizeSum_cons] at hroom
    have hdest : (c.move index (ptr, size)).dest = c.dest + size := by
      rw [c.move_dest]
      exact Word64.add_eq_of_lt (by omega)
    obtain ⟨issued, hissued, hrun⟩ := ih (show (c.move index (ptr, size)).dest + sizeSum rest < 2 ^ 64 by omega)
    rw [hdest] at hrun
    by_cases hptr : ptr = c.dest
    · have hcopies : (c.move index (ptr, size)).copies = c.copies := by simp [Compaction.move, hptr]
      refine ⟨issued, by rw [List.foldl_cons, hissued, hcopies], fun memory => ?_⟩
      have hplace : Extent.moveDown c.dest (block (ptr, size)) memory = some memory := if_neg (not_not.mpr hptr)
      rw [List.map_cons, Extent.slideDown, hplace, hrun]
      rfl
    · have hcopies : (c.move index (ptr, size)).copies = c.copies ++ [⟨c.dest, ptr, size⟩] := by
        simp [Compaction.move, hptr]
      refine ⟨⟨c.dest, ptr, size⟩ :: issued, by rw [List.foldl_cons, hissued, hcopies, List.append_assoc]; rfl,
        fun memory => ?_⟩
      have hplace : Extent.moveDown c.dest (block (ptr, size)) memory =
          Copy.run ⟨c.dest, ptr, size⟩ memory := if_pos hptr
      rw [List.map_cons, Extent.slideDown, hplace, runCopies, List.foldlM_cons]
      exact congrArg (Option.bind _) (funext hrun)

theorem issuedCopies_of_calm (hcalm : (manager.pools index).fragmentationMetrics.shouldDefragment = false) :
    manager.issuedCopies index = [] := by
  simp [issuedCopies, defragmentPool, hcalm]

/-- The copies of a pool in bounds slide its blocks down. -/
theorem InBounds.runCopies_issued (h : manager.InBounds index)
    (hshould : (manager.pools index).fragmentationMetrics.shouldDefragment = true) (memory : Nat → UInt8) :
    runCopies (manager.issuedCopies index) memory =
      Extent.slideDown (manager.pools index).start ((manager.liveAllocations index).map block) memory := by
  have hregion := h.region
  have hsum := h.sizeSum_le
  obtain ⟨issued, hissued, hrun⟩ := foldl_move_copies index (manager.liveAllocations index)
    (show Compaction.dest ⟨manager.poolAllocations, (manager.pools index).start, []⟩ +
      sizeSum (manager.liveAllocations index) < 2 ^ 64 by simp only; omega)
  have hcopies : manager.issuedCopies index = issued := by
    rw [List.nil_append] at hissued
    simp only [issuedCopies, defragmentPool, hshould, Bool.not_true, Bool.false_eq_true, if_false, compact,
      List.drop_left, hissued]
  rw [hcopies, hrun]

theorem keepsContents_of_calm (hcalm : (manager.pools index).fragmentationMetrics.shouldDefragment = false)
    (memory : Nat → UInt8) : manager.KeepsContents index memory := by
  have hissued := issuedCopies_of_calm hcalm
  refine ⟨fun copy hcopy => ?_, memory, by rw [hissued]; rfl, fun below allocation above _ i _ => ?_⟩
  · rw [hissued] at hcopy
    exact absurd hcopy List.not_mem_nil
  · rw [placeAfter, hcalm]
    rfl

theorem InBounds.keepsContents (h : manager.InBounds index)
    (hshould : (manager.pools index).fragmentationMetrics.shouldDefragment = true)
    (hclear : Extent.ClearSlide (manager.pools index).start ((manager.liveAllocations index).map block))
    (memory : Nat → UInt8) : manager.KeepsContents index memory := by
  obtain ⟨after, hslide⟩ := Option.isSome_iff_exists.mp ((h.slidable.slideDown_isSome_iff memory).mpr hclear)
  have hrun := (h.runCopies_issued hshould memory).trans hslide
  refine ⟨disjoint_of_runCopies hrun, after, hrun, fun below allocation above hsplit i hi => ?_⟩
  have hblocks : (manager.liveAllocations index).map block =
      below.map block ++ block allocation :: above.map block := by
    rw [hsplit, List.map_append, List.map_cons]
  have hcells := (h.slidable.moved hslide).cells _ _ _ hblocks i hi
  rw [List.map_map] at hcells
  rw [placeAfter, if_pos hshould]
  exact hcells

/-- Compaction keeps the contents of a pool exactly when no block slides by less
than its size. -/
theorem keepsContents_iff (h : manager.InBounds index) (memory : Nat → UInt8) :
    manager.KeepsContents index memory ↔ manager.SlidesClear index := by
  cases hshould : (manager.pools index).fragmentationMetrics.shouldDefragment with
  | false =>
    exact iff_of_true (keepsContents_of_calm hshould memory)
      fun htrue => absurd (hshould.symm.trans htrue) Bool.false_ne_true
  | true =>
    refine ⟨fun hkeeps _ => ?_, fun hclear => h.keepsContents hshould (hclear hshould) memory⟩
    obtain ⟨after, hrun, _⟩ := hkeeps.bytes
    rw [h.runCopies_issued hshould] at hrun
    exact (h.slidable.slideDown_isSome_iff memory).mp (hrun ▸ rfl)

/-- A cache line above a gap of more than a MiB. -/
theorem keepsContents_gapBelow : (gapBelow 64).KeepsContents 3 fun _ => 0 :=
  (keepsContents_iff gapBelow_compactable.toInBounds _).mpr fun _ => ⟨.inr (.inr (by decide)), trivial⟩

/-- Two MiB above a gap of half as much: the block is copied over itself. -/
theorem copied_over_itself :
    ¬ ∀ (manager : OptimizedUnifiedMemoryManager) (index : Fin POOL_COUNT) (memory : Nat → UInt8),
      manager.InBounds index → manager.KeepsContents index memory := by
  intro hall
  have hbounds : (gapBelow 0x200000).InBounds 3 := ⟨by decide, by decide, by decide⟩
  have hissued : (gapBelow 0x200000).issuedCopies 3 = [⟨0x2000000, 0x2100040, 0x200000⟩] := rfl
  have hdisjoint := (hall (gapBelow 0x200000) 3 (fun _ => 0) hbounds).disjoint
  rw [hissued, List.forall_mem_singleton] at hdisjoint
  exact absurd hdisjoint (by decide)

end Kernel.Memory.OptimizedUnifiedMemoryManager
