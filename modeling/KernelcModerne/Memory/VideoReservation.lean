import KernelcModerne.Memory.VideoDefragmentation

open Squeezing

namespace Kernel.Memory.VideoMemory

open EnhancedGraphicsResourceManager

/-- A block that a reservation of `size` bytes can take. -/
def HasRoom (size : UInt64) (blocks : List MemoryBlock) : Prop := ∃ block ∈ blocks, suits size block = true

/-- A block suits, or one does after the first defragmentation, whatever order
the sort leaves blocks of one address in: a run of free blocks with the bytes,
that is not overwritten by blocks in use. -/
def Reservable (size : UInt64) (blocks : List MemoryBlock) : Prop :=
  HasRoom size blocks ∨ blocks ≠ [] ∧
    ∀ sorted, sorted.Perm blocks → (sorted.Pairwise fun a b => addressKey a ≤ addressKey b) →
      HasRoom size ((mergedRuns sorted).drop (blocks.filter isUsed).length)

section Termination

variable {size : UInt64} {blocks : List MemoryBlock}

theorem isUsed_of_suits {block : MemoryBlock} (h : suits size block = true) : isUsed block = false := by
  simp [isUsed, isFree_of_suits h]

/-- Blocks in use make no room. -/
theorem hasRoom_append_used {front rest : List MemoryBlock} (hfront : ∀ block ∈ front, isUsed block = true) :
    HasRoom size (front ++ rest) ↔ HasRoom size rest := by
  constructor
  · rintro ⟨block, hblock, hsuits⟩
    cases List.mem_append.mp hblock with
    | inl hin =>
      have hused := hfront block hin
      rw [isUsed_of_suits hsuits] at hused
      cases hused
    | inr hin => exact ⟨block, hin, hsuits⟩
  · rintro ⟨block, hblock, hsuits⟩
    exact ⟨block, List.mem_append_right _ hblock, hsuits⟩

theorem hasRoom_squeeze :
    HasRoom size (squeeze isUsed blocks) ↔ HasRoom size (blocks.drop (blocks.filter isUsed).length) :=
  hasRoom_append_used fun _ hblock => (List.mem_filter.mp hblock).2

/-- Merging does not change of which kind the first block is. -/
theorem absorb_head (block : MemoryBlock) (blocks : List MemoryBlock) :
    ∃ first rest, absorb block blocks = first :: rest ∧ isUsed first = isUsed block := by
  induction blocks generalizing block with
  | nil => exact ⟨block, [], rfl, rfl⟩
  | cons next blocks ih =>
    unfold absorb
    split
    · exact ih { block with size := block.size + next.size }
    · exact ⟨block, _, rfl, rfl⟩

/-- No free blocks are neighbours after they are merged. -/
theorem spread_absorb (block : MemoryBlock) (blocks : List MemoryBlock) :
    Spread isUsed (absorb block blocks) := by
  induction blocks generalizing block with
  | nil => exact List.isChain_singleton _
  | cons next blocks ih =>
    unfold absorb
    split
    · exact ih { block with size := block.size + next.size }
    · next hnot =>
      obtain ⟨first, rest, habsorb, hfirst⟩ := absorb_head next blocks
      refine List.isChain_cons.mpr ⟨fun other hother => ?_, ih next⟩
      obtain rfl : first = other := by simpa [habsorb] using hother
      rw [hfirst]
      cases hblock : block.isFree <;> cases hnext : next.isFree <;> simp_all [isUsed]

theorem spread_mergedRuns (blocks : List MemoryBlock) : Spread isUsed (mergedRuns blocks) := by
  cases blocks with
  | nil => exact List.isChain_nil
  | cons block blocks => exact spread_absorb block blocks

theorem sublist_addressKey_absorb (block : MemoryBlock) (blocks : List MemoryBlock) :
    ((absorb block blocks).map addressKey).Sublist ((block :: blocks).map addressKey) := by
  induction blocks generalizing block with
  | nil => exact List.Sublist.refl _
  | cons next blocks ih =>
    unfold absorb
    split
    · have hmerged := ih { block with size := block.size + next.size }
      exact hmerged.trans (List.Sublist.cons_cons _ (List.sublist_cons_self _ _))
    · exact (ih next).cons_cons _

/-- Merged blocks are in order as the blocks were. -/
theorem pairwise_mergedRuns (h : blocks.Pairwise fun a b => addressKey a ≤ addressKey b) :
    (mergedRuns blocks).Pairwise fun a b => addressKey a ≤ addressKey b := by
  cases blocks with
  | nil => exact h
  | cons block blocks =>
    have hkeys := List.pairwise_map.mpr h
    exact List.pairwise_map.mp (hkeys.sublist (sublist_addressKey_absorb block blocks))

theorem absorb_of_spread {block : MemoryBlock} (h : Spread isUsed (block :: blocks)) :
    absorb block blocks = block :: blocks := by
  induction blocks generalizing block with
  | nil => rfl
  | cons next blocks ih =>
    obtain ⟨hneighbour, hrest⟩ := List.isChain_cons_cons.mp h
    have hnot : ¬(block.isFree && next.isFree) = true := by
      simpa [isUsed, imp_iff_not_or, Bool.not_eq_true] using hneighbour
    rw [absorb, if_neg hnot, ih hrest]

/-- Where no free blocks are neighbours, nothing is merged. -/
theorem mergedRuns_of_spread (h : Spread isUsed blocks) : mergedRuns blocks = blocks := by
  cases blocks with
  | nil => rfl
  | cons block blocks => exact absorb_of_spread h

/-- What a defragmentation leaves that has made no room: blocks in use before
blocks in order, among which no free ones are neighbours. -/
def Settled (size : UInt64) (blocks : List MemoryBlock) : Prop :=
  ∃ front rest, blocks = front ++ rest ∧ (∀ block ∈ front, isUsed block = true) ∧
    (rest.Pairwise fun a b => addressKey a ≤ addressKey b) ∧ Spread isUsed rest ∧ ¬ HasRoom size rest

theorem settled_squeeze (hsorted : blocks.Pairwise fun a b => addressKey a ≤ addressKey b)
    (hspread : Spread isUsed blocks) (hroom : ¬ HasRoom size (blocks.drop (blocks.filter isUsed).length)) :
    Settled size (squeeze isUsed blocks) :=
  ⟨_, _, rfl, fun _ hblock => (List.mem_filter.mp hblock).2, hsorted.sublist (List.drop_sublist _ _),
    hspread.drop _, hroom⟩

theorem Settled.no_room (h : Settled size blocks) : ¬ HasRoom size blocks := by
  obtain ⟨front, rest, rfl, hfront, _, _, hroom⟩ := h
  rwa [hasRoom_append_used hfront]

/-- A stable sort keeps free blocks from becoming neighbours. -/
theorem Settled.squeeze_stable (h : Settled size blocks) :
    Settled size (squeeze isUsed (mergedRuns ((KeySort.stable addressKey).sort blocks))) := by
  have hperm := (KeySort.stable addressKey).perm blocks
  have hnone : ¬ HasRoom size ((KeySort.stable addressKey).sort blocks) := by
    rintro ⟨block, hblock, hsuits⟩
    exact h.no_room ⟨block, hperm.mem_iff.mp hblock, hsuits⟩
  have hspread : Spread isUsed ((KeySort.stable addressKey).sort blocks) := by
    obtain ⟨front, rest, rfl, hfront, hsorted, hspread, _⟩ := h
    refine hspread.of_sublist (KeySort.sublist_stable hsorted (List.sublist_append_right front rest)) ?_
    have hfree : front.filter (fun block => !isUsed block) = [] :=
      List.filter_eq_nil_iff.mpr (by simpa using hfront)
    rw [(hperm.filter _).length_eq, List.filter_append, hfree, List.nil_append]
  rw [mergedRuns_of_spread hspread]
  refine settled_squeeze ((KeySort.stable addressKey).sorted blocks) hspread ?_
  rintro ⟨block, hblock, hsuits⟩
  exact hnone ⟨block, List.mem_of_mem_drop hblock, hsuits⟩

theorem find_eq_none_iff : blocks.find? (suits size) = none ↔ ¬ HasRoom size blocks := by
  simp [List.find?_eq_none, HasRoom]

/-- Without room, the first call is a defragmentation and one more call. -/
theorem reserveMemoryBlock_of_no_room (sort : KeySort addressKey) {vram : VideoMemory}
    (hroom : ¬ HasRoom size vram.blocks) (fuel : Nat) :
    reserveMemoryBlock sort size (fuel + 1) vram =
      (vram.defragmentMemory sort).bind (reserveMemoryBlock sort size fuel) := by
  rw [reserveMemoryBlock, find_eq_none_iff.mpr hroom]
  rfl

theorem reserveMemoryBlock_of_room (sort : KeySort addressKey) {vram : VideoMemory}
    (hroom : HasRoom size vram.blocks) (fuel : Nat) :
    ∃ after, reserveMemoryBlock sort size (fuel + 1) vram = .ok after := by
  cases hfound : vram.blocks.find? (suits size) with
  | none => exact absurd hroom (find_eq_none_iff.mp hfound)
  | some block =>
    obtain ⟨_, _, _, _, _, hreserve⟩ := reserveMemoryBlock_found sort hfound fuel
    exact ⟨_, hreserve⟩

/-- With a sort that makes no room at first and is stable from then on, no call
returns. -/
theorem reserveMemoryBlock_stuck {sorted : List MemoryBlock} (hroom : ¬ HasRoom size blocks)
    (hperm : sorted.Perm blocks) (hsorted : sorted.Pairwise fun a b => addressKey a ≤ addressKey b)
    (hlost : ¬ HasRoom size ((mergedRuns sorted).drop (blocks.filter isUsed).length)) (fuel : Nat)
    {vram : VideoMemory} (hstate : vram.blocks = blocks ∨ Settled size vram.blocks) (after : VideoMemory) :
    reserveMemoryBlock (KeySort.answering blocks sorted hperm hsorted) size fuel vram ≠ .ok after := by
  induction fuel generalizing vram with
  | zero => simp [reserveMemoryBlock]
  | succ fuel ih =>
    have hnone : ¬ HasRoom size vram.blocks := hstate.elim (fun heq => heq ▸ hroom) Settled.no_room
    rw [reserveMemoryBlock_of_no_room _ hnone]
    by_cases hempty : vram.blocks = []
    · rw [defragmentMemory_nil _ hempty]
      simp [Except.bind]
    · obtain ⟨moves, hresult⟩ := defragmentMemory_eq (KeySort.answering blocks sorted hperm hsorted) hempty
      rw [hresult]
      refine ih (.inr ?_)
      by_cases hsame : vram.blocks = blocks
      · rw [hsame, KeySort.answering_sort]
        refine settled_squeeze (pairwise_mergedRuns hsorted) (spread_mergedRuns sorted) ?_
        rwa [filter_isUsed_mergedRuns, (hperm.filter _).length_eq]
      · rw [KeySort.answering_sort_of_ne hsame]
        exact (hstate.resolve_left hsame).squeeze_stable

end Termination

/-- A reservation returns, in whatever order the sort leaves blocks of one
address, exactly when a block suits at once or after one defragmentation. -/
theorem reserveMemoryBlock_total_iff (size : UInt64) (vram : VideoMemory) :
    (∀ sort : KeySort addressKey, ∃ fuel after, reserveMemoryBlock sort size fuel vram = .ok after) ↔
      Reservable size vram.blocks := by
  constructor
  · intro h
    by_contra hnot
    obtain ⟨hroom, hlost⟩ := not_or.mp hnot
    by_cases hempty : vram.blocks = []
    · obtain ⟨fuel, after, hreturns⟩ := h (KeySort.stable addressKey)
      cases fuel with
      | zero => simp [reserveMemoryBlock] at hreturns
      | succ fuel =>
        rw [reserveMemoryBlock_of_no_room _ hroom, defragmentMemory_nil _ hempty] at hreturns
        simp [Except.bind] at hreturns
    · obtain ⟨sorted, hbad⟩ := not_forall.mp fun hall => hlost ⟨hempty, hall⟩
      obtain ⟨hperm, hbad⟩ := Classical.not_imp.mp hbad
      obtain ⟨hsorted, hnone⟩ := Classical.not_imp.mp hbad
      obtain ⟨fuel, after, hreturns⟩ := h (KeySort.answering vram.blocks sorted hperm hsorted)
      exact reserveMemoryBlock_stuck hroom hperm hsorted hnone fuel (.inl rfl) after hreturns
  · rintro (hroom | ⟨hblocks, hall⟩) sort
    · exact ⟨1, reserveMemoryBlock_of_room sort hroom 0⟩
    · by_cases hroom : HasRoom size vram.blocks
      · exact ⟨1, reserveMemoryBlock_of_room sort hroom 0⟩
      · obtain ⟨moves, hresult⟩ := defragmentMemory_eq sort hblocks
        have hmade := hall (sort.sort vram.blocks) (sort.perm _) (sort.sorted _)
        rw [← ((sort.perm vram.blocks).filter isUsed).length_eq,
          ← filter_isUsed_mergedRuns (sort.sort vram.blocks), ← hasRoom_squeeze] at hmade
        refine ⟨2, ?_⟩
        rw [reserveMemoryBlock_of_no_room sort hroom, hresult]
        exact reserveMemoryBlock_of_room sort hmade 0

/-- The only block is in use: the function calls itself for ever. -/
theorem reserveMemoryBlock_full :
    ¬ ∀ sort : KeySort addressKey, ∃ fuel after, reserveMemoryBlock sort 0x1000 fuel
      { totalSize := 0x1000, usedSize := 0x1000, blocks := [⟨0x10000, 0x1000, false⟩], moves := [] } =
        .ok after := by
  intro h
  obtain ⟨fuel, after, hreturns⟩ := h (KeySort.answering [⟨0x10000, 0x1000, false⟩] [⟨0x10000, 0x1000, false⟩]
    (List.Perm.refl _) (List.pairwise_singleton _ _))
  refine absurd hreturns (reserveMemoryBlock_stuck ?_ _ _ ?_ fuel (.inl ?_) after)
  · unfold HasRoom
    decide
  · unfold HasRoom
    decide
  · rfl

end Kernel.Memory.VideoMemory
