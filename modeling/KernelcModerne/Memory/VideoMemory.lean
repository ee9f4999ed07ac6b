import Mathlib.Algebra.GroupWithZero.Nat
import Mathlib.Algebra.Order.BigOperators.Group.List
import Mathlib.Algebra.Order.Group.Nat
import KernelcModerne.Lib.KeySort
import KernelcModerne.Lib.Transition

open Transition

namespace Kernel.Memory

namespace EnhancedGraphicsResourceManager

structure MemoryBlock where
  address : UInt64
  size : UInt64
  isFree : Bool
  deriving DecidableEq

structure MemoryPool where
  totalSize : UInt64
  usedSize : UInt64
  blocks : List MemoryBlock

/-- A call of `std::memmove`. -/
structure Move where
  dest : UInt64
  src : UInt64
  size : UInt64

end EnhancedGraphicsResourceManager

open EnhancedGraphicsResourceManager

/-- `dedicatedVRAM`. The moved bytes are outside: the calls that move them are
recorded in order. -/
structure VideoMemory extends MemoryPool where
  moves : List Move

namespace VideoMemory

/-- How a call fails to return: by an index that is out of range, or by calling
itself more often than the fuel allows. -/
inductive Fault where
  | outOfRange
  | outOfFuel

/-- `sizeof(MemoryBlock)`. -/
def SIZEOF_MEMORY_BLOCK : UInt64 := 24

def addressKey (block : MemoryBlock) : Nat := block.address.toNat

/-- `blocks.size() - 1`, which wraps for an empty vector. -/
def lastIndex (blocks : List MemoryBlock) : Nat :=
  if blocks.isEmpty then 2 ^ 64 - 1 else blocks.length - 1

/-- The merging loop of `defragmentMemory` from the index `i` on. After a merge
`i--` and `i++` leave the index, also where it is 0 and wraps. -/
def mergeFrom (blocks : List MemoryBlock) (i : Nat) : Except Fault (List MemoryBlock) :=
  if i < lastIndex blocks then
    match blocks[i]?, hnext : blocks[i + 1]? with
    | some block, some next =>
      if block.isFree && next.isFree then
        mergeFrom ((blocks.set i { block with size := block.size + next.size }).eraseIdx (i + 1)) i
      else mergeFrom blocks (i + 1)
    | _, _ => .error .outOfRange
  else .ok blocks
termination_by blocks.length - i
decreasing_by
  · have hlt := (List.getElem?_eq_some_iff.mp hnext).1
    rw [List.length_eraseIdx_of_lt (by simpa using hlt), List.length_set]
    omega
  · have hlt := (List.getElem?_eq_some_iff.mp hnext).1
    omega

/-- The compaction loop of `defragmentMemory` from `readIndex` on. -/
def compactFrom (blocks : List MemoryBlock) (moves : List Move) (readIndex writeIndex : Nat) :
    Except Fault (List MemoryBlock × List Move) :=
  if readIndex < blocks.length then
    match blocks[readIndex]? with
    | some block =>
      if block.isFree then compactFrom blocks moves (readIndex + 1) writeIndex
      else if writeIndex ≠ readIndex then
        match blocks[writeIndex]? with
        | some target =>
          compactFrom (blocks.set writeIndex block) (moves ++ [⟨target.address, block.address, block.size⟩])
            (readIndex + 1) (writeIndex + 1)
        | none => .error .outOfRange
      else compactFrom blocks moves (readIndex + 1) (writeIndex + 1)
    | none => .error .outOfRange
  else .ok (blocks, moves)
termination_by blocks.length - readIndex

def defragmentMemory (sort : KeySort addressKey) (vram : VideoMemory) : Except Fault VideoMemory := do
  let blocks ← mergeFrom (sort.sort vram.blocks) 0
  let (blocks, moves) ← compactFrom blocks vram.moves 0 0
  return { vram with blocks, moves }

/-- The test of the search in `reserveMemoryBlock`. -/
def suits (size : UInt64) (block : MemoryBlock) : Bool := block.isFree && block.size ≥ size

/-- The first part of `reserveMemoryBlock`, for the block found at `it`. -/
def reserveAt (vram : VideoMemory) (size : UInt64) (it : Nat) (block : MemoryBlock) : VideoMemory :=
  let blocks :=
    if block.size > size + SIZEOF_MEMORY_BLOCK then
      let newBlock : MemoryBlock :=
        { address := block.address + size, size := block.size - size, isFree := true }
      (vram.blocks.set it { block with size }).insertIdx (it + 1) newBlock
    else vram.blocks
  { vram with
    blocks := blocks.modify it fun block => { block with isFree := false }
    usedSize := vram.usedSize + size }

/-- `fuel` bounds how often the function calls itself. -/
def reserveMemoryBlock (sort : KeySort addressKey) (size : UInt64) : Nat → VideoMemory → Except Fault VideoMemory
  | 0, _ => .error .outOfFuel
  | fuel + 1, vram =>
    match vram.blocks.find? (suits size) with
    | some block => .ok (vram.reserveAt size (vram.blocks.findIdx (suits size)) block)
    | none => do
      let vram ← vram.defragmentMemory sort
      vram.reserveMemoryBlock sort size fuel

/-- The blocks in the place of one that is reserved. -/
def taken (size : UInt64) (block : MemoryBlock) : List MemoryBlock :=
  if block.size > size + SIZEOF_MEMORY_BLOCK then
    [{ block with size, isFree := false }, ⟨block.address + size, block.size - size, true⟩]
  else [{ block with isFree := false }]

/-- The bytes that a reservation hands out. -/
def handedOut (size : UInt64) (block : MemoryBlock) : UInt64 :=
  if block.size > size + SIZEOF_MEMORY_BLOCK then size else block.size

/-- Each block starts where the one before ends, from `start` to `stop`. -/
def Tiles : List MemoryBlock → Nat → Nat → Prop
  | [], start, stop => start = stop
  | block :: blocks, start, stop =>
    block.address.toNat = start ∧ Tiles blocks (start + block.size.toNat) stop

instance : (blocks : List MemoryBlock) → (start stop : Nat) → Decidable (Tiles blocks start stop)
  | [], start, stop => inferInstanceAs (Decidable (start = stop))
  | block :: blocks, start, stop =>
    have := instDecidableTiles blocks (start + block.size.toNat) stop
    inferInstanceAs (Decidable (_ ∧ _))

/-- The bytes of the blocks. -/
def totalBytes (blocks : List MemoryBlock) : Nat := (blocks.map fun block => block.size.toNat).sum

def isUsed (block : MemoryBlock) : Bool := !block.isFree

/-- The blocks that are not free. -/
def used (blocks : List MemoryBlock) : List MemoryBlock := blocks.filter isUsed

/-- `usedSize` is the sum of the sizes of the blocks that are not free. -/
def Accounted (vram : VideoMemory) : Prop := vram.usedSize.toNat = totalBytes (used vram.blocks)

instance (vram : VideoMemory) : Decidable vram.Accounted :=
  inferInstanceAs (Decidable (vram.usedSize.toNat = totalBytes (used vram.blocks)))

/-- The first block that suits is used, with at least `size` bytes, and what
remains of it is free; the others are as they were. -/
def Reserved (before after : List MemoryBlock) (size : UInt64) : Prop :=
  ∃ earlier block later marked rest, before = earlier ++ block :: later ∧
    (∀ other ∈ earlier, suits size other = false) ∧ suits size block = true ∧
    after = earlier ++ marked :: (rest ++ later) ∧ marked.address = block.address ∧ marked.isFree = false ∧
    size ≤ marked.size ∧ ∀ other ∈ rest, other.isFree = true

variable {vram : VideoMemory}

private theorem insertIdx_behind (earlier later : List MemoryBlock) (block newBlock : MemoryBlock) :
    (earlier ++ block :: later).insertIdx (earlier.length + 1) newBlock = earlier ++ block :: newBlock :: later := by
  induction earlier with
  | nil => rfl
  | cons other earlier ih => exact congrArg _ ih

theorem modify_at (earlier later : List MemoryBlock) (block : MemoryBlock)
    (f : MemoryBlock → MemoryBlock) :
    (earlier ++ block :: later).modify earlier.length f = earlier ++ f block :: later := by
  induction earlier with
  | nil => rfl
  | cons other earlier ih => exact congrArg _ ih

theorem reserveAt_eq {earlier later : List MemoryBlock} {block : MemoryBlock}
    (h : vram.blocks = earlier ++ block :: later) (size : UInt64) :
    vram.reserveAt size earlier.length block =
      { vram with blocks := earlier ++ (taken size block ++ later), usedSize := vram.usedSize + size } := by
  simp only [reserveAt, h, taken]
  split
  · rw [List.set_append_right _ _ (Nat.le_refl _), Nat.sub_self, List.set_cons_zero, insertIdx_behind, modify_at]
    rfl
  · rw [modify_at]
    rfl

/-- The first block that suits, and those before it. -/
theorem find_suits {size : UInt64} {block : MemoryBlock} (h : vram.blocks.find? (suits size) = some block) :
    ∃ earlier later, vram.blocks = earlier ++ block :: later ∧
      (∀ other ∈ earlier, suits size other = false) ∧ suits size block = true ∧
      vram.blocks.findIdx (suits size) = earlier.length := by
  obtain ⟨hsuits, earlier, later, hsplit, hearlier⟩ := List.find?_eq_some_iff_append.mp h
  have hnone : ∀ other ∈ earlier, suits size other = false := by simpa using hearlier
  refine ⟨earlier, later, hsplit, hnone, hsuits, ?_⟩
  have hpassed := List.findIdx_eq_length.mpr hnone
  rw [hsplit, List.findIdx_append, hpassed, if_neg (Nat.lt_irrefl _), List.findIdx_cons, hsuits]
  exact Nat.zero_add _

/-- A reservation that finds a block. -/
theorem reserveMemoryBlock_found (sort : KeySort addressKey) {size : UInt64} {block : MemoryBlock}
    (h : vram.blocks.find? (suits size) = some block) (fuel : Nat) :
    ∃ earlier later, vram.blocks = earlier ++ block :: later ∧
      (∀ other ∈ earlier, suits size other = false) ∧ suits size block = true ∧
      reserveMemoryBlock sort size (fuel + 1) vram = .ok
        { vram with blocks := earlier ++ (taken size block ++ later), usedSize := vram.usedSize + size } := by
  obtain ⟨earlier, later, hsplit, hearlier, hsuits, hindex⟩ := find_suits h
  refine ⟨earlier, later, hsplit, hearlier, hsuits, ?_⟩
  rw [reserveMemoryBlock, h, hindex]
  exact congrArg Except.ok (reserveAt_eq hsplit size)

@[simp] theorem totalBytes_append (first second : List MemoryBlock) :
    totalBytes (first ++ second) = totalBytes first + totalBytes second := by
  simp [totalBytes]

@[simp] theorem totalBytes_cons (block : MemoryBlock) (blocks : List MemoryBlock) :
    totalBytes (block :: blocks) = block.size.toNat + totalBytes blocks := by
  simp [totalBytes]

@[simp] theorem totalBytes_nil : totalBytes [] = 0 := rfl

@[simp] theorem used_append (first second : List MemoryBlock) : used (first ++ second) = used first ++ used second :=
  List.filter_append ..

/-- A part of the blocks has no more bytes than all of them. -/
theorem totalBytes_used_le (blocks : List MemoryBlock) : totalBytes (used blocks) ≤ totalBytes blocks :=
  (List.filter_sublist.map _).sum_le_sum fun _ _ => Nat.zero_le _

theorem size_le_of_suits {size : UInt64} {block : MemoryBlock} (h : suits size block = true) :
    size ≤ block.size := by
  simp only [suits, Bool.and_eq_true, decide_eq_true_eq] at h
  exact h.2

theorem isFree_of_suits {size : UInt64} {block : MemoryBlock} (h : suits size block = true) :
    block.isFree = true := by
  simp only [suits, Bool.and_eq_true] at h
  exact h.1

theorem totalBytes_taken {size : UInt64} {block : MemoryBlock} (hle : size ≤ block.size) :
    totalBytes (taken size block) = block.size.toNat := by
  unfold taken
  split
  · have hsub := UInt64.toNat_sub_of_le _ _ hle
    rw [UInt64.le_iff_toNat_le] at hle
    simp only [totalBytes_cons, totalBytes_nil, hsub]
    omega
  · simp

theorem totalBytes_used_taken (size : UInt64) (block : MemoryBlock) :
    totalBytes (used (taken size block)) = (handedOut size block).toNat := by
  unfold taken handedOut
  split
  · simp [used, isUsed]
  · simp [used, isUsed]

theorem Tiles.stop_eq {blocks : List MemoryBlock} {start stop : Nat} (h : Tiles blocks start stop) :
    start + totalBytes blocks = stop := by
  induction blocks generalizing start with
  | nil => exact h
  | cons block blocks ih =>
    rw [totalBytes_cons, ← Nat.add_assoc]
    exact ih h.2

theorem tiles_append {first second : List MemoryBlock} {start stop : Nat} :
    Tiles (first ++ second) start stop ↔
      Tiles first start (start + totalBytes first) ∧ Tiles second (start + totalBytes first) stop := by
  induction first generalizing start with
  | nil => simp [Tiles]
  | cons block first ih =>
    rw [List.cons_append, Tiles, Tiles, ih, totalBytes_cons, Nat.add_assoc, and_assoc]

/-- What is put in the place of a block takes the same range. -/
theorem tiles_taken {size : UInt64} {block : MemoryBlock} (hle : size ≤ block.size)
    (hend : block.address.toNat + block.size.toNat < 2 ^ 64) :
    Tiles (taken size block) block.address.toNat (block.address.toNat + block.size.toNat) := by
  unfold taken
  split
  · have hsub := UInt64.toNat_sub_of_le _ _ hle
    have hadd := UInt64.toNat_add block.address size
    rw [UInt64.le_iff_toNat_le] at hle
    refine ⟨rfl, ?_, ?_⟩
    · rw [hadd]
      exact Nat.mod_eq_of_lt (by omega)
    · simp only [Tiles, hsub]
      omega
  · exact ⟨rfl, rfl⟩

/-- For every tiling of a range and every size that a free block has room for,
the first such block is reserved and the blocks tile the range as before. -/
theorem reserveMemoryBlock_splits (sort : KeySort addressKey) (start stop : UInt64)
    (htiles : Tiles vram.blocks start.toNat stop.toNat) {size : UInt64}
    (hroom : ∃ block ∈ vram.blocks, block.isFree = true ∧ size ≤ block.size) (fuel : Nat) :
    ∃ after, reserveMemoryBlock sort size (fuel + 1) vram = .ok after ∧
      Reserved vram.blocks after.blocks size ∧ Tiles after.blocks start.toNat stop.toNat ∧
      totalBytes after.blocks = totalBytes vram.blocks := by
  obtain ⟨block, hfound⟩ : ∃ block, vram.blocks.find? (suits size) = some block := by
    obtain ⟨block, hmem, hfree, hle⟩ := hroom
    exact Option.isSome_iff_exists.mp (List.find?_isSome.mpr ⟨block, hmem, by simp [suits, hfree, hle]⟩)
  obtain ⟨earlier, later, hsplit, hearlier, hsuits, hreserve⟩ := reserveMemoryBlock_found sort hfound fuel
  have hle := size_le_of_suits hsuits
  rw [hsplit] at htiles ⊢
  obtain ⟨hbefore, haddress, hbehind⟩ := tiles_append.mp htiles
  refine ⟨_, hreserve, ?_, ?_, ?_⟩
  · unfold taken
    split
    · exact ⟨earlier, block, later, _, _, rfl, hearlier, hsuits, rfl, rfl, rfl, UInt64.le_refl _, by simp⟩
    · exact ⟨earlier, block, later, _, [], rfl, hearlier, hsuits, rfl, rfl, rfl, hle, by simp⟩
  · have hend := hbehind.stop_eq
    have hstop := stop.toNat_lt
    have htaken := tiles_taken hle (by omega)
    rw [haddress] at htaken
    refine tiles_append.mpr ⟨hbefore, tiles_append.mpr ?_⟩
    rw [totalBytes_taken hle]
    exact ⟨htaken, hbehind⟩
  · simp [totalBytes_taken hle]

/-- A pool of two blocks, of which the second is split. -/
theorem reserveMemoryBlock_splits_second :
    let vram : VideoMemory :=
      { totalSize := 0x3000, usedSize := 0x1000, moves := []
        blocks := [⟨0x10000, 0x1000, false⟩, ⟨0x11000, 0x2000, true⟩] }
    ∃ after, reserveMemoryBlock (KeySort.stable addressKey) 0x1000 1 vram = .ok after ∧
      Reserved vram.blocks after.blocks 0x1000 ∧ Tiles after.blocks 0x10000 0x13000 ∧
      totalBytes after.blocks = totalBytes vram.blocks :=
  reserveMemoryBlock_splits (KeySort.stable addressKey) 0x10000 0x13000 (by decide)
    ⟨⟨0x11000, 0x2000, true⟩, by decide, by decide⟩ 0

/-- The pool with the capacity of its vector. -/
structure Stored where
  vram : VideoMemory
  capacity : Nat
  length_le : vram.blocks.length ≤ capacity

/-- A call that finds a block without defragmenting. Where the vector has no room
for the block that is inserted, its elements move away from under the iterator:
what the write through it does is undefined, and no pool is left (`none`). -/
def step (sort : KeySort addressKey) (pool : Option Stored) (size : UInt64) : Option (Option Stored) :=
  pool.bind fun stored => (reserveMemoryBlock sort size 1 stored.vram).toOption.map fun after =>
    if h : after.blocks.length ≤ stored.capacity then some ⟨after, stored.capacity, h⟩ else none

/-- There is a pool, and its `usedSize` is right. -/
def AccountedIn (pool : Option Stored) : Prop := ∃ stored, pool = some stored ∧ stored.vram.Accounted

/-- The first block that suits is split, in a vector that has room for one block
more, or is as large as what is asked for. -/
def Exact (pool : Option Stored) (size : UInt64) : Prop :=
  ∀ stored, pool = some stored → ∀ block, stored.vram.blocks.find? (suits size) = some block →
    if block.size > size + SIZEOF_MEMORY_BLOCK then stored.vram.blocks.length < stored.capacity
    else block.size = size

theorem step_cases {sort : KeySort addressKey} {pool after : Option Stored} {size : UInt64}
    (h : step sort pool size = some after) :
    ∃ stored earlier block later, pool = some stored ∧ stored.vram.blocks.find? (suits size) = some block ∧
      stored.vram.blocks = earlier ++ block :: later ∧ suits size block = true ∧
      after.map Stored.vram =
        if (earlier ++ (taken size block ++ later)).length ≤ stored.capacity then
          some { stored.vram with
            blocks := earlier ++ (taken size block ++ later), usedSize := stored.vram.usedSize + size }
        else none := by
  cases pool with
  | none => cases h
  | some stored =>
    rw [step, Option.bind_some] at h
    cases hfound : stored.vram.blocks.find? (suits size) with
    | none =>
      rw [reserveMemoryBlock, hfound] at h
      cases hdefragment : stored.vram.defragmentMemory sort <;>
        simp [hdefragment, Except.toOption, bind, Except.bind, reserveMemoryBlock] at h
    | some block =>
      obtain ⟨earlier, later, hsplit, _, hsuits, hreserve⟩ := reserveMemoryBlock_found sort hfound 0
      rw [hreserve] at h
      obtain rfl := Option.some.inj h
      refine ⟨stored, earlier, block, later, rfl, hfound, hsplit, hsuits, ?_⟩
      simp only [apply_dite (Option.map Stored.vram), Option.map_some, Option.map_none, dite_eq_ite]

/-- The blocks fit in the vector exactly where none is inserted or there is room. -/
theorem length_taken_le_iff (stored : Stored) (size : UInt64) {earlier later : List MemoryBlock}
    {block : MemoryBlock} (hsplit : stored.vram.blocks = earlier ++ block :: later) :
    (earlier ++ (taken size block ++ later)).length ≤ stored.capacity ↔
      (block.size > size + SIZEOF_MEMORY_BLOCK → stored.vram.blocks.length < stored.capacity) := by
  have hle := stored.length_le
  rw [hsplit] at hle ⊢
  unfold taken
  split
  · next hlarge =>
    rw [imp_iff_right hlarge]
    simp only [List.length_append, List.length_cons, List.length_nil]
    omega
  · next hsmall =>
    refine iff_of_true ?_ fun hlarge => absurd hlarge hsmall
    simpa using hle

/-- The number of bytes is less than 2^64, in a pool that there is. -/
def Bounded (pool : Option Stored) : Prop :=
  ∀ stored, pool = some stored → totalBytes stored.vram.blocks < 2 ^ 64

theorem Bounded.step {sort : KeySort addressKey} {pool after : Option Stored} {size : UInt64} (h : Bounded pool)
    (hstep : VideoMemory.step sort pool size = some after) : Bounded after := by
  obtain ⟨stored, earlier, block, later, rfl, _, hsplit, hsuits, hafter⟩ := step_cases hstep
  rintro next rfl
  have hbound := h stored rfl
  rw [Option.map_some] at hafter
  split at hafter
  · rw [Option.some.inj hafter]
    simpa [hsplit, totalBytes_taken (size_le_of_suits hsuits)] using hbound
  · cases hafter

/-- The counter follows the request, the blocks what is handed out. -/
theorem accounted_taken_iff {size : UInt64} {earlier later : List MemoryBlock} {block : MemoryBlock}
    (hsplit : vram.blocks = earlier ++ block :: later) (hsuits : suits size block = true)
    (hbound : totalBytes vram.blocks < 2 ^ 64) (haccounted : vram.Accounted) :
    Accounted { vram with blocks := earlier ++ (taken size block ++ later), usedSize := vram.usedSize + size } ↔
      handedOut size block = size := by
  have hused : totalBytes (used (earlier ++ (taken size block ++ later))) =
      totalBytes (used vram.blocks) + (handedOut size block).toNat := by
    have hfree := isFree_of_suits hsuits
    have hcons : used (block :: later) = used later := by simp [used, isUsed, hfree]
    simp only [hsplit, used_append, totalBytes_append, totalBytes_used_taken, hcons]
    omega
  have hafter : totalBytes (earlier ++ (taken size block ++ later)) = totalBytes vram.blocks := by
    simp [hsplit, totalBytes_taken (size_le_of_suits hsuits)]
  have hle := totalBytes_used_le (earlier ++ (taken size block ++ later))
  have hsum := UInt64.toNat_add vram.usedSize size
  have hsize := size.toNat_lt
  have hhanded : size.toNat ≤ (handedOut size block).toNat := by
    unfold handedOut
    split
    · exact Nat.le_refl _
    · exact UInt64.le_iff_toNat_le.mp (size_le_of_suits hsuits)
  rw [hused, hafter] at hle
  rw [Accounted] at haccounted
  rw [haccounted] at hsum
  rw [Accounted, hused, hsum, ← UInt64.toNat_inj]
  omega

/-- A call keeps the account exactly where it is exact and leaves a pool. -/
theorem accountedIn_step_iff {sort : KeySort addressKey} {pool after : Option Stored} {size : UInt64}
    (hbound : Bounded pool) (haccounted : AccountedIn pool) (h : step sort pool size = some after) :
    AccountedIn after ↔ Exact pool size := by
  obtain ⟨stored, earlier, block, later, rfl, hfound, hsplit, hsuits, hafter⟩ := step_cases h
  have haccounted' : stored.vram.Accounted := by
    obtain ⟨same, heq, hsame⟩ := haccounted
    exact Option.some.inj heq ▸ hsame
  have hcounts := accounted_taken_iff hsplit hsuits (hbound stored rfl) haccounted'
  have hroom := length_taken_le_iff stored size hsplit
  have hexact : Exact (some stored) size ↔
      (block.size > size + SIZEOF_MEMORY_BLOCK → stored.vram.blocks.length < stored.capacity) ∧
        handedOut size block = size := by
    unfold Exact handedOut
    simp only [Option.some.injEq, forall_eq', hfound]
    split
    · next hlarge => simp [hlarge]
    · next hsmall => simp [hsmall]
  have hnext : AccountedIn after ↔ ∃ next, after.map Stored.vram = some next ∧ next.Accounted := by
    constructor
    · rintro ⟨next, rfl, hnext⟩
      exact ⟨next.vram, rfl, hnext⟩
    · rintro ⟨next, hmap, hnext⟩
      obtain ⟨vector, rfl, rfl⟩ := Option.map_eq_some_iff.mp hmap
      exact ⟨vector, rfl, hnext⟩
  rw [hnext, hafter, hexact, ← hroom]
  split
  · next hfits => simp only [Option.some.injEq, exists_eq_left', hcounts, hfits, true_and]
  · next hfull => exact iff_of_false (by simp) fun h => hfull h.1

/-- In every run of reservations that find a block, from free blocks that tile a
range on, there is a pool and its `usedSize` is what is used exactly when each
block is handed out as large as asked for, and split only where the vector has
room. -/
theorem always_exact_iff (sort : KeySort addressKey) (start stop : UInt64) (stored : Stored)
    (htiles : Tiles stored.vram.blocks start.toNat stop.toNat)
    (hfree : ∀ block ∈ stored.vram.blocks, block.isFree = true) (hused : stored.vram.usedSize = 0)
    (sizes : List UInt64) :
    Always (step sort) AccountedIn (some stored) sizes ↔ Guarded (step sort) Exact (some stored) sizes := by
  have hbound : Bounded (some stored) := by
    rintro _ ⟨⟩
    have hend := htiles.stop_eq
    have hstop := stop.toNat_lt
    omega
  have hstart : AccountedIn (some stored) := by
    have hnone : used stored.vram.blocks = [] := List.filter_eq_nil_iff.mpr (by simpa [isUsed] using hfree)
    refine ⟨stored, rfl, ?_⟩
    rw [Accounted, hused, hnone]
    rfl
  exact always_iff_guarded Bounded (fun _ _ _ hbound hstep => hbound.step hstep)
    (fun _ _ _ hbound haccounted hstep => accountedIn_step_iff hbound haccounted hstep) sizes hbound hstart

/-- One free block of the size, in a vector of the capacity. -/
def oneBlock (size : UInt64) (capacity : Nat) (h : 1 ≤ capacity) : Stored where
  vram := { totalSize := size, usedSize := 0, moves := [], blocks := [⟨0x10000, size, true⟩] }
  capacity := capacity
  length_le := h

/-- A block that is split, and one that is taken whole. -/
theorem always_exact_twice :
    Always (step (KeySort.stable addressKey)) AccountedIn (some (oneBlock 0x2000 2 (by decide)))
      [0x1000, 0x1000] := by
  refine (always_exact_iff _ 0x10000 0x12000 _ (by decide) (by decide) rfl _).mpr ?_
  intro _ hfirst
  obtain rfl := Option.some.inj hfirst
  refine ⟨?_, fun _ hsecond => ?_⟩
  · rintro _ ⟨⟩ block hblock
    obtain rfl := Option.some.inj hblock
    decide
  · obtain rfl := Option.some.inj hsecond
    refine ⟨?_, trivial⟩
    rintro _ ⟨⟩ block hblock
    obtain rfl := Option.some.inj hblock
    decide

/-- The remainder of 16 bytes is handed out and not counted. -/
theorem remainder_not_counted :
    ¬ Always (step (KeySort.stable addressKey)) AccountedIn (some (oneBlock 0x1010 1 (by decide))) [0x1000] := by
  rintro ⟨_, h⟩
  obtain ⟨⟨_, heq, haccounted⟩, _⟩ := h _ rfl
  obtain rfl := Option.some.inj heq
  exact absurd haccounted (by decide)

end VideoMemory

end Kernel.Memory
