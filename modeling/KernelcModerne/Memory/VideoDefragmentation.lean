import KernelcModerne.Lib.Extent
import KernelcModerne.Lib.Squeezing
import KernelcModerne.Memory.VideoMemory

open Squeezing

namespace Kernel.Memory.VideoMemory

open EnhancedGraphicsResourceManager

/-- A block with the free blocks behind it merged into it, and the others merged
likewise. -/
def absorb (block : MemoryBlock) : List MemoryBlock → List MemoryBlock
  | [] => [block]
  | next :: blocks =>
    if block.isFree && next.isFree then absorb { block with size := block.size + next.size } blocks
    else block :: absorb next blocks

/-- Every run of free blocks merged into one block. -/
def mergedRuns : List MemoryBlock → List MemoryBlock
  | [] => []
  | block :: blocks => absorb block blocks

theorem lastIndex_cons (done blocks : List MemoryBlock) (block : MemoryBlock) :
    lastIndex (done ++ block :: blocks) = done.length + blocks.length := by
  unfold lastIndex
  rw [if_neg (by simp)]
  simp

/-- The merging loop goes through the list once. -/
theorem mergeFrom_append (done : List MemoryBlock) (block : MemoryBlock) (blocks : List MemoryBlock) :
    mergeFrom (done ++ block :: blocks) done.length = .ok (done ++ absorb block blocks) := by
  induction blocks generalizing done block with
  | nil =>
    rw [mergeFrom, lastIndex_cons, if_neg (by simp)]
    rfl
  | cons next blocks ih =>
    have hblock : (done ++ block :: next :: blocks)[done.length]? = some block := by simp
    have hnext : (done ++ block :: next :: blocks)[done.length + 1]? = some next := by
      rw [List.getElem?_append_right (by omega)]
      simp
    rw [mergeFrom, lastIndex_cons, if_pos (by simp)]
    split
    · rename_i first second hfirst hsecond
      obtain rfl : block = first := Option.some.inj (hblock.symm.trans hfirst)
      obtain rfl : next = second := Option.some.inj (hnext.symm.trans hsecond)
      unfold absorb
      split
      · have hmerged : ((done ++ block :: next :: blocks).set done.length
            { block with size := block.size + next.size }).eraseIdx (done.length + 1) =
              done ++ { block with size := block.size + next.size } :: blocks := by
          rw [List.set_append_right _ _ (Nat.le_refl _), Nat.sub_self, List.set_cons_zero,
            List.eraseIdx_append_of_length_le (by omega), Nat.add_sub_cancel_left]
          rfl
        rw [hmerged, ih]
      · have hnextRun := ih (done ++ [block]) next
        simpa using hnextRun
    · rename_i hnone
      exact (hnone block next hblock hnext).elim

/-- The compaction loop: `front` are the blocks in use so far, and `stale` what
stands between them and the block that is read. -/
theorem compactFrom_append (front stale rest : List MemoryBlock) (moves : List Move) :
    ∃ moves', compactFrom (front ++ stale ++ rest) moves (front.length + stale.length) front.length =
      .ok (front ++ rest.filter isUsed ++ (stale ++ rest).drop (rest.filter isUsed).length, moves') := by
  induction rest generalizing front stale moves with
  | nil =>
    rw [compactFrom, if_neg (by simp)]
    exact ⟨moves, by simp⟩
  | cons block rest ih =>
    have hread : (front ++ stale ++ block :: rest)[front.length + stale.length]? = some block := by
      rw [← List.length_append]
      simp
    rw [compactFrom, if_pos (by simp), hread]
    dsimp only
    split
    · next hfree =>
      have hunused : isUsed block = false := by simp [isUsed, hfree]
      have hnext := ih front (stale ++ [block]) moves
      rw [List.length_append, ← Nat.add_assoc] at hnext
      rw [List.filter_cons_of_neg (by simp [hunused])]
      simpa using hnext
    · next hfree =>
      have hused : isUsed block = true := by simp [isUsed, hfree]
      rw [List.filter_cons_of_pos hused]
      cases stale with
      | nil =>
        have hnext := ih (front ++ [block]) [] moves
        simpa using hnext
      | cons target stale =>
        have htarget : (front ++ target :: stale ++ block :: rest)[front.length]? = some target := by simp
        rw [if_pos (by simp), htarget]
        dsimp only
        have hset : (front ++ target :: stale ++ block :: rest).set front.length block =
            front ++ [block] ++ (stale ++ [block]) ++ rest := by simp
        have hnext := ih (front ++ [block]) (stale ++ [block])
          (moves ++ [⟨target.address, block.address, block.size⟩])
        rw [hset]
        simpa [Nat.add_assoc, Nat.add_comm, Nat.add_left_comm] using hnext

/-- What a defragmentation makes of blocks that have been sorted. -/
theorem defragmentMemory_eq (sort : KeySort addressKey) {vram : VideoMemory} (hblocks : vram.blocks ≠ []) :
    ∃ moves, vram.defragmentMemory sort =
      .ok { vram with blocks := squeeze isUsed (mergedRuns (sort.sort vram.blocks)), moves } := by
  have hsorted : sort.sort vram.blocks ≠ [] := fun hnil => by
    have hlength := (sort.perm vram.blocks).length_eq
    rw [hnil, List.length_nil] at hlength
    exact hblocks (List.length_eq_zero_iff.mp hlength.symm)
  cases hcons : sort.sort vram.blocks with
  | nil => exact absurd hcons hsorted
  | cons block blocks =>
    have hmerge : mergeFrom (block :: blocks) 0 = .ok (absorb block blocks) := mergeFrom_append [] block blocks
    obtain ⟨moves, hcompact⟩ := compactFrom_append [] [] (absorb block blocks) vram.moves
    refine ⟨moves, ?_⟩
    rw [defragmentMemory, hcons, hmerge]
    simp only [bind, Except.bind]
    simp only [List.nil_append, List.length_nil, Nat.add_zero] at hcompact
    rw [hcompact]
    rfl

/-- The loop looks at the first block of an empty list. -/
theorem defragmentMemory_nil (sort : KeySort addressKey) {vram : VideoMemory} (hblocks : vram.blocks = []) :
    vram.defragmentMemory sort = .error .outOfRange := by
  have hsorted : sort.sort vram.blocks = [] := by
    rw [hblocks]
    exact (sort.perm []).eq_nil
  rw [defragmentMemory, hsorted, mergeFrom]
  rfl

section Merging

variable {block : MemoryBlock} {blocks : List MemoryBlock}

theorem filter_isUsed_absorb (block : MemoryBlock) (blocks : List MemoryBlock) :
    (absorb block blocks).filter isUsed = (block :: blocks).filter isUsed := by
  induction blocks generalizing block with
  | nil => rfl
  | cons next blocks ih =>
    unfold absorb
    split
    · next hfree =>
      obtain ⟨hblock, hnext⟩ := Bool.and_eq_true_iff.mp hfree
      rw [ih]
      simp [isUsed, hblock, hnext]
    · simp only [List.filter_cons, ih]

/-- The blocks in use stay. -/
theorem filter_isUsed_mergedRuns (blocks : List MemoryBlock) :
    (mergedRuns blocks).filter isUsed = blocks.filter isUsed := by
  cases blocks with
  | nil => rfl
  | cons block blocks => exact filter_isUsed_absorb block blocks

theorem forall_isFree_absorb (block : MemoryBlock) (blocks : List MemoryBlock) :
    (∀ other ∈ absorb block blocks, isUsed other = false) ↔ ∀ other ∈ block :: blocks, isUsed other = false := by
  have hnone (blocks : List MemoryBlock) :
      (∀ other ∈ blocks, isUsed other = false) ↔ blocks.filter isUsed = [] := by
    simp [List.filter_eq_nil_iff]
  rw [hnone, hnone, filter_isUsed_absorb]

theorem front_absorb : Front isUsed (absorb block blocks) ↔ Front isUsed (block :: blocks) := by
  induction blocks generalizing block with
  | nil => exact Iff.rfl
  | cons next blocks ih =>
    unfold absorb
    split
    · next hfree =>
      obtain ⟨hblock, hnext⟩ := Bool.and_eq_true_iff.mp hfree
      rw [ih]
      simp [Front, isUsed, hblock, hnext]
    · have hrest := forall_isFree_absorb next blocks
      rw [Front, List.pairwise_cons, Front, List.pairwise_cons]
      refine and_congr ?_ ih
      cases hused : isUsed block with
      | true => simp
      | false => simpa using hrest

theorem front_mergedRuns : Front isUsed (mergedRuns blocks) ↔ Front isUsed blocks := by
  cases blocks with
  | nil => exact Iff.rfl
  | cons block blocks => exact front_absorb

theorem mergedRuns_cons_used (hused : isUsed block = true) (blocks : List MemoryBlock) :
    mergedRuns (block :: blocks) = block :: mergedRuns blocks := by
  have hfree : block.isFree = false := by simpa [isUsed] using hused
  cases blocks with
  | nil => rfl
  | cons next blocks =>
    rw [mergedRuns, absorb, if_neg (by simp [hfree])]
    rfl

theorem mergedRuns_append_used {front : List MemoryBlock} (hused : ∀ block ∈ front, isUsed block = true)
    (blocks : List MemoryBlock) : mergedRuns (front ++ blocks) = front ++ mergedRuns blocks := by
  induction front with
  | nil => rfl
  | cons block front ih =>
    obtain ⟨hblock, hfront⟩ := List.forall_mem_cons.mp hused
    rw [List.cons_append, mergedRuns_cons_used hblock, ih hfront, List.cons_append]

/-- Free blocks are merged into one, whose size wraps. -/
theorem absorb_free (hfree : ∀ other ∈ block :: blocks, isUsed other = false) :
    ∃ merged, absorb block blocks = [merged] ∧ merged.address = block.address ∧
      merged.size.toNat = totalBytes (block :: blocks) % 2 ^ 64 := by
  induction blocks generalizing block with
  | nil =>
    have hlt := block.size.toNat_lt
    refine ⟨block, rfl, rfl, ?_⟩
    simp only [totalBytes_cons, totalBytes_nil]
    omega
  | cons next blocks ih =>
    have hblock : block.isFree = true := by simpa [isUsed] using hfree block List.mem_cons_self
    have hnext : next.isFree = true := by
      simpa [isUsed] using hfree next (List.mem_cons_of_mem _ List.mem_cons_self)
    rw [absorb, if_pos (by simp [hblock, hnext])]
    have hrest : ∀ other ∈ { block with size := block.size + next.size } :: blocks, isUsed other = false := by
      refine List.forall_mem_cons.mpr ⟨by simp [isUsed, hblock], fun other hother => ?_⟩
      exact hfree other (List.mem_cons_of_mem _ (List.mem_cons_of_mem _ hother))
    obtain ⟨merged, habsorb, haddress, hsize⟩ := ih hrest
    refine ⟨merged, habsorb, haddress, ?_⟩
    have hadd := UInt64.toNat_add block.size next.size
    rw [hsize]
    simp only [totalBytes_cons, hadd]
    omega

end Merging

/-- The range of a block. -/
def extent (block : MemoryBlock) : Extent := ⟨block.address.toNat, block.size.toNat⟩

/-- The bytes of the free blocks. -/
def freeBytes (blocks : List MemoryBlock) : Nat := totalBytes (blocks.filter fun block => !isUsed block)

/-- The blocks are apart, with the same bytes in all and the same sizes in use. -/
structure Conserved (before after : List MemoryBlock) : Prop where
  apart : after.Pairwise fun a b => (extent a).Apart (extent b)
  total : totalBytes after = totalBytes before
  used : ((after.filter isUsed).map MemoryBlock.size).Perm ((before.filter isUsed).map MemoryBlock.size)

/-- The blocks in use lie below the free ones. -/
def UsedBelowFree (blocks : List MemoryBlock) : Prop :=
  ∀ block ∈ blocks, ∀ free ∈ blocks, isUsed block = true → isUsed free = false → block.address < free.address

/-- No block in use reaches over the start of a free one, unless no free block
has any bytes. -/
def UsedClearOfFree (blocks : List MemoryBlock) : Prop :=
  ∀ block ∈ blocks, ∀ free ∈ blocks, isUsed block = true → isUsed free = false →
    (extent block).stop ≤ (extent free).start ∨ freeBytes blocks = 0

section Conservation

variable {before sorted : List MemoryBlock}

theorem UsedBelowFree.front (hbelow : UsedBelowFree before) (hperm : sorted.Perm before)
    (hsorted : sorted.Pairwise fun a b => addressKey a ≤ addressKey b) : Front isUsed sorted := by
  refine hsorted.imp_of_mem fun ha hb hle hused => ?_
  by_contra hfree
  have hlt := hbelow _ (hperm.mem_iff.mp hb) _ (hperm.mem_iff.mp ha) hused (Bool.eq_false_iff.mpr hfree)
  exact absurd (UInt64.lt_iff_toNat_lt.mp hlt) (Nat.not_lt.mpr hle)

/-- Sorted blocks of which those in use come first are merged at the end only. -/
theorem squeeze_mergedRuns (hfront : Front isUsed sorted) :
    squeeze isUsed (mergedRuns sorted) =
      sorted.filter isUsed ++ mergedRuns (sorted.filter fun block => !isUsed block) := by
  have hused : ∀ block ∈ sorted.filter isUsed, isUsed block = true :=
    fun block hblock => (List.mem_filter.mp hblock).2
  have hmerged := mergedRuns_append_used hused (sorted.filter fun block => !isUsed block)
  rw [squeeze_of_front (front_mergedRuns.mpr hfront), ← hmerged, ← hfront.eq_append]

theorem totalBytes_perm {first second : List MemoryBlock} (h : first.Perm second) :
    totalBytes first = totalBytes second := (h.map _).sum_eq

/-- The blocks in use and the free ones make up all bytes. -/
theorem totalBytes_eq (hperm : sorted.Perm before) (hfront : Front isUsed sorted) :
    totalBytes before = totalBytes (sorted.filter isUsed) + freeBytes before := by
  have hfree : totalBytes (sorted.filter fun block => !isUsed block) = freeBytes before :=
    totalBytes_perm (hperm.filter _)
  rw [← totalBytes_perm hperm, ← hfree, ← totalBytes_append, ← hfront.eq_append]

theorem sizes_used_squeeze (hperm : sorted.Perm before) (hfront : Front isUsed sorted) :
    (((squeeze isUsed (mergedRuns sorted)).filter isUsed).map MemoryBlock.size).Perm
      ((before.filter isUsed).map MemoryBlock.size) := by
  rw [squeeze_of_front (front_mergedRuns.mpr hfront), filter_isUsed_mergedRuns]
  exact (hperm.filter _).map _

/-- A free block at the place of the lowest one, with the bytes of all, which are
counted in 64 bits. -/
structure Merged (before : List MemoryBlock) (lowest merged : MemoryBlock) : Prop where
  mem : lowest ∈ before
  unused : isUsed lowest = false
  le : ∀ free ∈ before, isUsed free = false → addressKey lowest ≤ addressKey free
  address : merged.address = lowest.address
  size : merged.size.toNat = freeBytes before % 2 ^ 64

/-- Behind the blocks in use stands one free block, if there are any. -/
theorem squeeze_mergedRuns_cases (hperm : sorted.Perm before)
    (hsorted : sorted.Pairwise fun a b => addressKey a ≤ addressKey b) (hfront : Front isUsed sorted) :
    (freeBytes before = 0 ∧ squeeze isUsed (mergedRuns sorted) = sorted.filter isUsed) ∨
      ∃ lowest merged, Merged before lowest merged ∧
        squeeze isUsed (mergedRuns sorted) = sorted.filter isUsed ++ [merged] := by
  have hbytes : totalBytes (sorted.filter fun block => !isUsed block) = freeBytes before :=
    totalBytes_perm (hperm.filter _)
  rw [squeeze_mergedRuns hfront]
  cases hfree : sorted.filter fun block => !isUsed block with
  | nil =>
    rw [hfree, totalBytes_nil] at hbytes
    exact .inl ⟨hbytes.symm, List.append_nil _⟩
  | cons lowest others =>
    have hmem {free : MemoryBlock} : free ∈ lowest :: others ↔ free ∈ before ∧ isUsed free = false := by
      rw [← hfree, List.mem_filter, hperm.mem_iff, Bool.not_eq_true']
    have hpairwise := hfree ▸ hsorted.sublist List.filter_sublist
    obtain ⟨hlowest, hunused⟩ := hmem.mp List.mem_cons_self
    obtain ⟨merged, habsorb, haddress, hsize⟩ := absorb_free fun other hother => (hmem.mp hother).2
    rw [← hfree, hbytes] at hsize
    refine .inr ⟨lowest, merged, ⟨hlowest, hunused, fun free hbefore hfreeBlock => ?_, haddress, hsize⟩, ?_⟩
    · cases List.mem_cons.mp (hmem.mpr ⟨hbefore, hfreeBlock⟩) with
      | inl heq => exact heq ▸ Nat.le_refl _
      | inr hothers => exact (List.pairwise_cons.mp hpairwise).1 free hothers
    · rw [mergedRuns, habsorb]

/-- The merged block stays clear of the blocks in use where the lowest free one
does. -/
theorem Merged.clear_iff {lowest merged : MemoryBlock} (h : Merged before lowest merged)
    (hbelow : UsedBelowFree before) (hbound : freeBytes before < 2 ^ 64) :
    (∀ block ∈ before, isUsed block = true → (extent block).Apart (extent merged)) ↔
      UsedClearOfFree before := by
  have hstart : merged.address.toNat = lowest.address.toNat := congrArg UInt64.toNat h.address
  have hsize := h.size
  constructor
  · intro hapart block hblock free hfree hused hunused
    have hclear := hapart block hblock hused
    have hlt := UInt64.lt_iff_toNat_lt.mp (hbelow block hblock lowest h.mem hused h.unused)
    have hle := h.le free hfree hunused
    rw [Extent.apart_iff] at hclear
    simp only [extent, Extent.stop, addressKey] at hclear hle ⊢
    omega
  · intro hclear block hblock hused
    have hlowest := hclear block hblock lowest h.mem hused h.unused
    rw [Extent.apart_iff]
    simp only [extent, Extent.stop] at hlowest ⊢
    omega

theorem conserved_iff (hperm : sorted.Perm before)
    (hsorted : sorted.Pairwise fun a b => addressKey a ≤ addressKey b)
    (hapart : before.Pairwise fun a b => (extent a).Apart (extent b)) (hbelow : UsedBelowFree before) :
    Conserved before (squeeze isUsed (mergedRuns sorted)) ↔
      freeBytes before < 2 ^ 64 ∧ UsedClearOfFree before := by
  have hfront := hbelow.front hperm hsorted
  have htotal := totalBytes_eq hperm hfront
  have hsizes := sizes_used_squeeze hperm hfront
  have husedApart : (sorted.filter isUsed).Pairwise fun a b => (extent a).Apart (extent b) :=
    ((hperm.pairwise_iff fun h => h.symm).mpr hapart).sublist List.filter_sublist
  have hmem {block : MemoryBlock} : block ∈ sorted.filter isUsed ↔ block ∈ before ∧ isUsed block = true := by
    rw [List.mem_filter, hperm.mem_iff]
  obtain ⟨hnone, hsqueeze⟩ | ⟨lowest, merged, hmerged, hsqueeze⟩ :=
    squeeze_mergedRuns_cases hperm hsorted hfront
  · rw [hsqueeze] at hsizes ⊢
    refine iff_of_true ⟨husedApart, by omega, hsizes⟩ ⟨by omega, ?_⟩
    exact fun _ _ _ _ _ _ => .inr hnone
  · have hsize := hmerged.size
    rw [hsqueeze] at hsizes ⊢
    constructor
    · intro h
      have hall := h.total
      rw [totalBytes_append, totalBytes_cons, totalBytes_nil] at hall
      have hbound : freeBytes before < 2 ^ 64 := by omega
      refine ⟨hbound, (hmerged.clear_iff hbelow hbound).mp fun block hblock hused => ?_⟩
      exact (List.pairwise_append.mp h.apart).2.2 block (hmem.mpr ⟨hblock, hused⟩) merged
        (List.mem_singleton_self _)
    · rintro ⟨hbound, hclear⟩
      have hmergedApart := (hmerged.clear_iff hbelow hbound).mpr hclear
      refine ⟨List.pairwise_append.mpr ⟨husedApart, List.pairwise_singleton _ _, ?_⟩, ?_, hsizes⟩
      · intro block hblock other hother
        obtain rfl := List.mem_singleton.mp hother
        exact hmergedApart block (hmem.mp hblock).1 (hmem.mp hblock).2
      · rw [totalBytes_append, totalBytes_cons, totalBytes_nil]
        omega

theorem exists_conserved_iff (sort : KeySort addressKey) {vram : VideoMemory} (hblocks : vram.blocks ≠ []) :
    (∃ after, vram.defragmentMemory sort = .ok after ∧ Conserved vram.blocks after.blocks) ↔
      Conserved vram.blocks (squeeze isUsed (mergedRuns (sort.sort vram.blocks))) := by
  obtain ⟨moves, hresult⟩ := defragmentMemory_eq sort hblocks
  rw [hresult]
  constructor
  · rintro ⟨after, heq, h⟩
    obtain rfl := Except.ok.inj heq
    exact h
  · exact fun h => ⟨_, rfl, h⟩

/-- The sort may put a free block first, and then a block in use is doubled. -/
theorem usedBelowFree_of_conserved
    (h : ∀ sort : KeySort addressKey, Conserved before (squeeze isUsed (mergedRuns (sort.sort before)))) :
    UsedBelowFree before := by
  intro block hblock free hfree hused hunused
  by_contra hnot
  have hne : free ≠ block := by
    rintro rfl
    simp [hused] at hunused
  have hle : addressKey free ≤ addressKey block := UInt64.not_lt.mp hnot
  obtain ⟨sort, hbefore⟩ := KeySort.exists_sort_before hfree hblock hne hle
  have hcount := (h sort).used.length_eq
  rw [List.length_map, List.length_map, ← ((sort.perm before).filter _).length_eq,
    ← filter_isUsed_mergedRuns (sort.sort before)] at hcount
  have hfront := front_mergedRuns.mp (length_filter_squeeze_iff.mp hcount)
  have hpair := List.pairwise_pair.mp (hfront.sublist hbefore) hused
  simp [hunused] at hpair

/-- A defragmentation conserves the blocks, in whatever order the sort leaves
blocks of one address, exactly when those in use lie below the free ones and do
not reach into them, and the free bytes can be counted. -/
theorem defragmentMemory_conserves_iff {vram : VideoMemory} (hblocks : vram.blocks ≠ [])
    (hapart : vram.blocks.Pairwise fun a b => (extent a).Apart (extent b)) :
    (∀ sort : KeySort addressKey, ∃ after, vram.defragmentMemory sort = .ok after ∧
      Conserved vram.blocks after.blocks) ↔
      UsedBelowFree vram.blocks ∧ UsedClearOfFree vram.blocks ∧ freeBytes vram.blocks < 2 ^ 64 := by
  simp only [exists_conserved_iff _ hblocks]
  constructor
  · intro h
    have hbelow := usedBelowFree_of_conserved h
    obtain ⟨hbound, hclear⟩ := (conserved_iff ((KeySort.stable addressKey).perm vram.blocks)
      ((KeySort.stable addressKey).sorted vram.blocks) hapart hbelow).mp (h _)
    exact ⟨hbelow, hclear, hbound⟩
  · rintro ⟨hbelow, hclear, hbound⟩ sort
    exact (conserved_iff (sort.perm vram.blocks) (sort.sorted vram.blocks) hapart hbelow).mpr ⟨hbound, hclear⟩

/-- A block in use below two free ones. -/
theorem defragmentMemory_conserves_three :
    let vram : VideoMemory :=
      { totalSize := 0x3000, usedSize := 0x1000, moves := []
        blocks := [⟨0x10000, 0x1000, false⟩, ⟨0x12000, 0x1000, true⟩, ⟨0x11000, 0x1000, true⟩] }
    UsedBelowFree vram.blocks ∧ ∀ sort : KeySort addressKey, ∃ after, vram.defragmentMemory sort = .ok after ∧
      Conserved vram.blocks after.blocks := by
  intro vram
  have hbelow : UsedBelowFree vram.blocks := by
    unfold UsedBelowFree
    decide
  have hclear : UsedClearOfFree vram.blocks := by
    unfold UsedClearOfFree
    decide
  exact ⟨hbelow, (defragmentMemory_conserves_iff (by decide) (by decide)).mpr ⟨hbelow, hclear, by decide⟩⟩

/-- A free block below one in use is overwritten by it. -/
theorem free_block_overwritten :
    let vram : VideoMemory :=
      { totalSize := 0x2000, usedSize := 0x1000, moves := []
        blocks := [⟨0x10000, 0x1000, true⟩, ⟨0x11000, 0x1000, false⟩] }
    vram.blocks ≠ [] ∧ (vram.blocks.Pairwise fun a b => (extent a).Apart (extent b)) ∧
      ¬ ∀ sort : KeySort addressKey, ∃ after, vram.defragmentMemory sort = .ok after ∧
        Conserved vram.blocks after.blocks := by
  refine ⟨by decide, by decide, fun h => ?_⟩
  have hbelow := usedBelowFree_of_conserved fun sort => (exists_conserved_iff sort (by decide)).mp (h sort)
  exact absurd (hbelow ⟨0x11000, 0x1000, false⟩ (by decide) ⟨0x10000, 0x1000, true⟩ (by decide) rfl rfl)
    (by decide)

end Conservation

end Kernel.Memory.VideoMemory
