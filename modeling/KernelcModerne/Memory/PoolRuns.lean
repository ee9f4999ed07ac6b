import KernelcModerne.Lib.Extent
import KernelcModerne.Lib.Transition
import KernelcModerne.Memory.PoolCompaction

open Transition

namespace Kernel.Memory.OptimizedUnifiedMemoryManager

/-- Where the page allocator put the pools: disjoint regions of the address
space, each with an address one past its end. -/
structure Layout where
  start : Fin POOL_COUNT → Nat
  fits : ∀ index, start index + poolSize index < 2 ^ 64
  apart : ∀ index other, index ≠ other →
    (Extent.mk (start index) (poolSize index)).Apart ⟨start other, poolSize other⟩

def region (manager : OptimizedUnifiedMemoryManager) (index : Fin POOL_COUNT) : Extent where
  start := (manager.pools index).start
  len := (manager.pools index).size

/-- A request that does not wrap is rounded up to whole cache lines. -/
theorem alignSize_eq {size : Nat} (hsize : size + (CACHE_LINE_SIZE - 1) < 2 ^ 64) :
    alignSize size = (size + (CACHE_LINE_SIZE - 1)) / CACHE_LINE_SIZE * CACHE_LINE_SIZE := by
  have hmask : 2 ^ 64 - CACHE_LINE_SIZE = (2 ^ 58 - 1) * 2 ^ 6 := by decide
  have hline : CACHE_LINE_SIZE = 2 ^ 6 := rfl
  rw [alignSize, Word64.add_eq_of_lt hsize, hmask, hline]
  apply Nat.eq_of_testBit_eq
  intro i
  rw [Nat.testBit_and, Nat.testBit_mul_two_pow, Nat.testBit_mul_two_pow, Nat.testBit_two_pow_sub_one,
    Nat.testBit_div_two_pow]
  by_cases hlow : 6 ≤ i
  · by_cases hhigh : i < 64
    · have hbit : i - 6 < 58 := by omega
      simp [hlow, hbit]
    · have hclear : (size + (2 ^ 6 - 1)).testBit i = false := by
        apply Nat.testBit_lt_two_pow
        exact hsize.trans_le (Nat.pow_le_pow_right (by decide) (by omega))
      rw [Nat.sub_add_cancel hlow, hclear, Bool.false_and, Bool.and_false]
  · simp [hlow]

theorem le_alignSize {size : Nat} (hsize : size + (CACHE_LINE_SIZE - 1) < 2 ^ 64) :
    size ≤ alignSize size := by
  rw [alignSize_eq hsize]
  unfold CACHE_LINE_SIZE
  omega

/-- A pool block as its owner knows it: the bytes asked for, from the address
returned. -/
structure PoolBlock where
  pool : Fin POOL_COUNT
  bytes : Extent

/-- A manager and the pool blocks its callers have not freed yet. -/
structure Client where
  manager : OptimizedUnifiedMemoryManager
  blocks : List PoolBlock

inductive Op where
  | allocate (size : UInt64) (answers : Answers)
  | free (ptr : UInt64)

namespace Client

def initialized (layout : Layout) (totalPages availablePages : Nat) : Client where
  manager := .initialized layout.start totalPages availablePages
  blocks := []

/-- One call. `freeMemory` may be called with any pointer; it ends the block at
that address when it answers true. -/
def step (client : Client) : Op → Option Client
  | .allocate size answers =>
    let (manager, ptr) := client.manager.allocateMemory answers size.toNat
    match client.manager.poolFor answers size.toNat with
    | some pool => some { manager, blocks := ⟨pool, ⟨ptr, size.toNat⟩⟩ :: client.blocks }
    | none => some { client with manager }
  | .free ptr =>
    let (manager, freed) := client.manager.freeMemory ptr.toNat
    if freed then some { manager, blocks := client.blocks.eraseP fun b => b.bytes.start = ptr.toNat }
    else some { client with manager }

/-- The live blocks share no byte, and each lies inside its pool. -/
structure Separate (client : Client) : Prop where
  apart : client.blocks.Pairwise fun a b => a.bytes.Apart b.bytes
  inside : ∀ b ∈ client.blocks, (client.manager.region b.pool).start ≤ b.bytes.start ∧
    b.bytes.stop ≤ (client.manager.region b.pool).stop

/-- The bytes that a request takes out of a pool: from the counter on. -/
def bytesAtCounter (client : Client) (index : Fin POOL_COUNT) (size : Nat) : Extent where
  start := (client.manager.pools index).start + (client.manager.pools index).used
  len := size

/-- What a call asks of the state before it. A request that a pool serves did
not wrap when it was aligned, and no live block of the pool holds a byte that
the request takes from the pool's counter on. -/
def Clear (client : Client) : Op → Prop
  | .allocate size answers => size.toNat ≠ 0 →
    ∀ index, (client.manager.pools index).Serves answers.workload (alignSize size.toNat) →
      size.toNat + (CACHE_LINE_SIZE - 1) < 2 ^ 64 ∧
        ∀ b ∈ client.blocks, b.pool = index →
          (client.bytesAtCounter index size.toNat).Apart b.bytes
  | .free _ => True

/-- The manager's accounts balance over the layout. -/
abbrev Tracked (layout : Layout) (client : Client) : Prop := client.manager.Accounted layout.start

variable {layout : Layout}

theorem initialized_tracked (layout : Layout) (totalPages availablePages : Nat) :
    (initialized layout totalPages availablePages).Tracked layout :=
  initialized_accounted _ _ _

theorem initialized_separate (layout : Layout) (totalPages availablePages : Nat) :
    (initialized layout totalPages availablePages).Separate where
  apart := .nil
  inside := by simp [initialized]

theorem Tracked.step {client after : Client} (h : client.Tracked layout) {op : Op}
    (hstep : client.step op = some after) : after.Tracked layout := by
  cases op with
  | allocate size answers =>
    have hafter := Accounted.allocateMemory h answers size.toNat
    simp only [Client.step] at hstep
    split at hstep <;> cases hstep <;> exact hafter
  | free ptr =>
    have hstarts (index : Fin POOL_COUNT) : layout.start index < 2 ^ 64 := by
      have hfits := layout.fits index
      omega
    have hafter := Accounted.freeMemory h hstarts ptr.toNat
    simp only [Client.step] at hstep
    split at hstep <;> cases hstep <;> exact hafter

theorem Tracked.region_eq {client : Client} (h : client.Tracked layout) (index : Fin POOL_COUNT) :
    client.manager.region index = ⟨layout.start index, poolSize index⟩ :=
  Extent.ext (h.start index) (h.size index)

/-- Fewer blocks over the same regions stay separate. -/
theorem Separate.of_blocks {client after : Client} (h : client.Separate)
    (hregion : ∀ index, after.manager.region index = client.manager.region index)
    (hblocks : after.blocks.Sublist client.blocks) : after.Separate where
  apart := h.apart.sublist hblocks
  inside b hb := by
    rw [hregion]
    exact h.inside b (hblocks.subset hb)

/-- Blocks of different pools share no byte. -/
theorem Tracked.apart_of_pool_ne {client : Client} (h : client.Tracked layout)
    {index other : Fin POOL_COUNT} (hne : index ≠ other) {a b : Extent}
    (ha : (client.manager.region index).start ≤ a.start ∧ a.stop ≤ (client.manager.region index).stop)
    (hb : (client.manager.region other).start ≤ b.start ∧ b.stop ≤ (client.manager.region other).stop) :
    a.Apart b := by
  rw [h.region_eq] at ha hb
  have hapart := layout.apart index other hne
  refine Finset.disjoint_of_subset_left ?_ (Finset.disjoint_of_subset_right ?_ hapart)
  · intro i hi
    rw [Extent.mem_cells] at hi ⊢
    omega
  · intro i hi
    rw [Extent.mem_cells] at hi ⊢
    omega

/-- What an allocation does to the client: a block at the counter of the pool
that serves it, or no new block. -/
theorem Tracked.step_allocate {client after : Client} (h : client.Tracked layout) {size : UInt64}
    (hsize : size.toNat ≠ 0) {answers : Answers}
    (hstep : client.step (.allocate size answers) = some after) :
    (∃ index, (client.manager.pools index).Serves answers.workload (alignSize size.toNat) ∧
      after.blocks = ⟨index, client.bytesAtCounter index size.toNat⟩ :: client.blocks) ∨
    (∀ index, ¬ (client.manager.pools index).Serves answers.workload (alignSize size.toNat)) ∧
      after.blocks = client.blocks := by
  simp only [Client.step] at hstep
  cases h.allocateMemory_cases answers hsize with
  | inl hserved =>
    obtain ⟨index, hserves, hpool, hafter⟩ := hserved
    simp only [hpool, hafter, Option.some.injEq] at hstep
    subst hstep
    have hroom := (h.used_add hserves).2
    have hfits := layout.fits index
    have haddress : Word64.add (layout.start index) (client.manager.pools index).used =
        (client.manager.pools index).start + (client.manager.pools index).used := by
      rw [h.start]
      apply Word64.add_eq_of_lt
      omega
    exact .inl ⟨index, hserves, by rw [haddress]; rfl⟩
  | inr hunserved =>
    obtain ⟨hnot, hpool, _⟩ := hunserved
    simp only [hpool, Option.some.injEq] at hstep
    subst hstep
    exact .inr ⟨hnot, rfl⟩

/-- The bytes at the counter lie inside the pool exactly when the request did
not wrap when it was aligned. -/
theorem Tracked.bytesAtCounter_inside_iff {client : Client} (h : client.Tracked layout)
    {index : Fin POOL_COUNT} {workload : WorkloadType} {size : Nat}
    (hserves : (client.manager.pools index).Serves workload (alignSize size)) :
    ((client.manager.region index).start ≤ (client.bytesAtCounter index size).start ∧
      (client.bytesAtCounter index size).stop ≤ (client.manager.region index).stop) ↔
      size + (CACHE_LINE_SIZE - 1) < 2 ^ 64 := by
  have hroom := (h.used_add hserves).2
  have hbound := poolSize_le index
  simp only [region, bytesAtCounter, Extent.stop, h.size index]
  constructor
  · rintro ⟨_, hstop⟩
    unfold CACHE_LINE_SIZE
    omega
  · intro hwrap
    have hle := le_alignSize hwrap
    omega

/-- A block taken at the counter keeps the blocks separate exactly when the
request did not wrap and the bytes are apart from the blocks of the pool. -/
theorem Tracked.separate_served_iff {client after : Client} (h : client.Tracked layout)
    (hsep : client.Separate) {index : Fin POOL_COUNT} {workload : WorkloadType} {size : Nat}
    (hserves : (client.manager.pools index).Serves workload (alignSize size))
    (hregion : ∀ index, after.manager.region index = client.manager.region index)
    (hblocks : after.blocks = ⟨index, client.bytesAtCounter index size⟩ :: client.blocks) :
    after.Separate ↔ size + (CACHE_LINE_SIZE - 1) < 2 ^ 64 ∧
      ∀ b ∈ client.blocks, b.pool = index → (client.bytesAtCounter index size).Apart b.bytes := by
  rw [← h.bytesAtCounter_inside_iff hserves]
  constructor
  · rintro ⟨hapart, hinside⟩
    rw [hblocks] at hapart hinside
    have hnew := hinside _ List.mem_cons_self
    rw [hregion] at hnew
    exact ⟨hnew, fun b hb _ => (List.pairwise_cons.mp hapart).1 b hb⟩
  · rintro ⟨hinside, hapart⟩
    refine ⟨hblocks ▸ List.pairwise_cons.mpr ⟨fun b hb => ?_, hsep.apart⟩, ?_⟩
    · by_cases hpool : b.pool = index
      · exact hapart b hb hpool
      · exact h.apart_of_pool_ne (Ne.symm hpool) hinside (hsep.inside b hb)
    · rw [hblocks]
      simp only [hregion]
      exact List.forall_mem_cons.mpr ⟨hinside, hsep.inside⟩

/-- A request that a pool serves is clear when that pool's part of it is. -/
theorem Tracked.clear_iff {client : Client} (h : client.Tracked layout) {size : UInt64}
    (hsize : size.toNat ≠ 0) {answers : Answers} {index : Fin POOL_COUNT}
    (hserves : (client.manager.pools index).Serves answers.workload (alignSize size.toNat)) :
    client.Clear (.allocate size answers) ↔
      size.toNat + (CACHE_LINE_SIZE - 1) < 2 ^ 64 ∧ ∀ b ∈ client.blocks, b.pool = index →
        (client.bytesAtCounter index size.toNat).Apart b.bytes := by
  constructor
  · intro hall
    exact hall hsize index hserves
  · intro hone _ other hother
    obtain rfl := h.serves_unique hserves hother
    exact hone

/-- From a state whose blocks are separate, a call keeps them separate exactly
when it is clear. -/
theorem Tracked.separate_step_iff {client after : Client} (h : client.Tracked layout)
    (hsep : client.Separate) {op : Op} (hstep : client.step op = some after) :
    after.Separate ↔ client.Clear op := by
  have hregion (index : Fin POOL_COUNT) : after.manager.region index = client.manager.region index := by
    rw [h.region_eq, (h.step hstep).region_eq]
  cases op with
  | allocate size answers =>
    by_cases hsize : size.toNat = 0
    · have hblocks : after.blocks = client.blocks := by
        simp only [Client.step, poolFor, if_pos hsize, Option.some.injEq] at hstep
        rw [← hstep]
      exact iff_of_true (hsep.of_blocks hregion (hblocks ▸ List.Sublist.refl _)) fun hne => absurd hsize hne
    · cases h.step_allocate hsize hstep with
      | inl hserved =>
        obtain ⟨index, hserves, hblocks⟩ := hserved
        rw [h.clear_iff hsize hserves]
        exact h.separate_served_iff hsep hserves hregion hblocks
      | inr hunserved =>
        obtain ⟨hnot, hblocks⟩ := hunserved
        refine iff_of_true (hsep.of_blocks hregion (hblocks ▸ List.Sublist.refl _)) ?_
        exact fun _ index hserves => absurd hserves (hnot index)
  | free ptr =>
    refine iff_of_true (hsep.of_blocks hregion ?_) trivial
    simp only [Client.step] at hstep
    split at hstep <;> cases hstep
    · exact List.eraseP_sublist
    · exact List.Sublist.refl _

/-- The pool blocks of a run are separate in every state exactly when all its
calls are clear. -/
theorem always_separate_iff_clear (layout : Layout) (totalPages availablePages : Nat) (ops : List Op) :
    Always step Separate (initialized layout totalPages availablePages) ops ↔
      Guarded step Clear (initialized layout totalPages availablePages) ops :=
  always_iff_guarded (Tracked layout) (fun _ _ _ h hstep => h.step hstep)
    (fun _ _ _ h hsep hstep => h.separate_step_iff hsep hstep) ops
    (initialized_tracked layout totalPages availablePages)
    (initialized_separate layout totalPages availablePages)

/-- Pools eight MiB apart. -/
def spreadLayout : Layout where
  start index := (index.val + 1) * 2 ^ 23
  fits := by decide
  apart := by decide

/-- Two blocks, the lower one freed: the counter now points at the upper one,
and the next request is answered with its bytes. -/
theorem freed_below_live_block :
    ¬ Always step Separate (initialized spreadLayout 0 0)
      [.allocate 64 ⟨.GAMING, 0, fun _ => 0⟩, .allocate 64 ⟨.GAMING, 0, fun _ => 0⟩, .free 0x800000,
        .allocate 64 ⟨.GAMING, 0, fun _ => 0⟩] := by
  rintro ⟨_, h⟩
  obtain ⟨_, h⟩ := h _ rfl
  obtain ⟨_, h⟩ := h _ rfl
  obtain ⟨_, h⟩ := h _ rfl
  obtain ⟨hsep, _⟩ := h _ rfl
  have hapart := (List.pairwise_cons.mp hsep.apart).1 ⟨0, ⟨0x800040, 64⟩⟩ List.mem_cons_self
  exact absurd hapart (by decide)

end Client

end Kernel.Memory.OptimizedUnifiedMemoryManager
