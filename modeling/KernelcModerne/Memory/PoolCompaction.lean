import KernelcModerne.Memory.PoolAccounting

namespace Kernel.Memory.OptimizedUnifiedMemoryManager

/-- The sizes of a list of allocations. -/
def sizeSum (allocations : List (Nat × Nat)) : Nat := (allocations.map Prod.snd).sum

@[simp] theorem sizeSum_cons (allocation : Nat × Nat) (rest : List (Nat × Nat)) :
    sizeSum (allocation :: rest) = allocation.2 + sizeSum rest := rfl

private theorem sum_filter_map (index : Fin POOL_COUNT)
    (entries : List (Sigma fun _ : Nat => PoolAllocationInfo)) :
    sizeSum ((entries.filter fun e => e.2.poolIndex = index).map fun e => (e.1, e.2.size)) =
      (entries.map fun e => sizeIn index e.2).sum := by
  induction entries with
  | nil => rfl
  | cons e entries ih =>
    by_cases he : e.2.poolIndex = index
    · simp [he, ih, sizeIn]
    · simp [he, ih, sizeIn]

/-- The live allocations carry the sizes recorded for the pool. -/
theorem sizeSum_liveAllocations (manager : OptimizedUnifiedMemoryManager) (index : Fin POOL_COUNT) :
    sizeSum (manager.liveAllocations index) = poolTotal manager.poolAllocations index := by
  have hperm := (List.perm_insertionSort (fun a b : Nat × Nat => a.1 < b.1 ∨ a.1 = b.1 ∧ a.2 ≤ b.2)
    ((manager.poolAllocations.entries.filter fun e => e.2.poolIndex = index).map
      fun e => (e.1, e.2.size))).map Prod.snd
  exact hperm.sum_eq.trans (sum_filter_map index _)

theorem mem_liveAllocations {manager : OptimizedUnifiedMemoryManager} {index : Fin POOL_COUNT}
    {ptr size : Nat} : (ptr, size) ∈ manager.liveAllocations index ↔
      manager.poolAllocations.lookup ptr = some ⟨index, size⟩ := by
  rw [liveAllocations, List.mem_insertionSort]
  constructor
  · intro h
    obtain ⟨⟨key, info⟩, he, heq⟩ := List.mem_map.mp h
    obtain ⟨hmem, hindex⟩ := List.mem_filter.mp he
    obtain ⟨rfl, rfl⟩ := Prod.mk.inj heq
    obtain rfl : info.poolIndex = index := of_decide_eq_true hindex
    exact AList.mem_lookup_iff.mpr hmem
  · intro h
    have hmem := AList.mem_lookup_iff.mp (Option.mem_def.mpr h)
    exact List.mem_map.mpr ⟨_, List.mem_filter.mpr ⟨hmem, decide_eq_true rfl⟩, rfl⟩

theorem nodup_liveAllocations (manager : OptimizedUnifiedMemoryManager) (index : Fin POOL_COUNT) :
    ((manager.liveAllocations index).map Prod.fst).Nodup := by
  have hperm := (List.perm_insertionSort (fun a b : Nat × Nat => a.1 < b.1 ∨ a.1 = b.1 ∧ a.2 ≤ b.2)
    ((manager.poolAllocations.entries.filter fun e => e.2.poolIndex = index).map
      fun e => (e.1, e.2.size))).map Prod.fst
  refine hperm.nodup_iff.mpr ?_
  rw [List.map_map]
  exact manager.poolAllocations.keys_nodup.sublist (List.filter_sublist.map _)

/-- The weight of the entries of pool `index` that the loop is done with. -/
def settledTotal (allocations : AList fun _ : Nat => PoolAllocationInfo) (index : Fin POOL_COUNT)
    (rest : List (Nat × Nat)) : Nat :=
  allocations.total fun ptr info => if ptr ∈ rest.map Prod.fst then 0 else sizeIn index info

/-- The compaction loop over a pool from `start` on, after blocks of `placed`
bytes and before those in `rest`. Every entry of the pool is a block still to
come or lies, at its offset, among the bytes placed; the latter add up to at
most `placed`. -/
structure Compacting (index : Fin POOL_COUNT) (start placed : Nat) (rest : List (Nat × Nat))
    (c : Compaction) : Prop where
  dest : c.dest = (start + placed) % 2 ^ 64
  room : placed + sizeSum rest < 2 ^ 64
  nodup : (rest.map Prod.fst).Nodup
  entries : ∀ ptr size, c.poolAllocations.lookup ptr = some ⟨index, size⟩ →
    (ptr, size) ∈ rest ∨ ∃ offset, ptr = (start + offset) % 2 ^ 64 ∧ offset + size ≤ placed
  settled : settledTotal c.poolAllocations index rest ≤ placed

private theorem weight_cons_of_ne {key ptr size weight : Nat} {rest : List (Nat × Nat)}
    (hne : key ≠ ptr) : (if key ∈ ((ptr, size) :: rest).map Prod.fst then 0 else weight) =
      if key ∈ rest.map Prod.fst then 0 else weight := by
  simp only [List.map_cons, List.mem_cons, hne, false_or]

private theorem settledTotal_cons_le {allocations : AList fun _ : Nat => PoolAllocationInfo}
    {index : Fin POOL_COUNT} {ptr size : Nat} {rest : List (Nat × Nat)}
    (hentry : ∀ size', allocations.lookup ptr = some ⟨index, size'⟩ → size' ≤ size)
    (hptr : ptr ∉ rest.map Prod.fst) :
    settledTotal allocations index rest ≤ size + settledTotal allocations index ((ptr, size) :: rest) := by
  unfold settledTotal
  cases hlookup : allocations.lookup ptr with
  | none =>
    refine (AList.total_le_total fun key info hkey => ?_).trans (Nat.le_add_left _ _)
    have hne : key ≠ ptr := by
      rintro rfl
      simp [hlookup] at hkey
    exact (weight_cons_of_ne hne).ge
  | some info =>
    rw [AList.total_erase_of_lookup _ hlookup, AList.total_erase_of_lookup _ hlookup, if_neg hptr]
    have hsize : sizeIn index info ≤ size := by
      by_cases hindex : info.poolIndex = index
      · subst hindex
        rw [sizeIn, if_pos rfl]
        exact hentry info.size hlookup
      · rw [sizeIn_of_ne hindex]
        exact Nat.zero_le _
    have herase : (allocations.erase ptr).total
        (fun key info => if key ∈ rest.map Prod.fst then 0 else sizeIn index info) ≤
        (allocations.erase ptr).total
          (fun key info => if key ∈ ((ptr, size) :: rest).map Prod.fst then 0 else sizeIn index info) := by
      refine AList.total_le_total fun key info hkey => ?_
      have hne : key ≠ ptr := by
        rintro rfl
        simp at hkey
      exact (weight_cons_of_ne hne).ge
    simp only [List.map_cons, List.mem_cons, true_or, if_true] at herase ⊢
    omega

private theorem settledTotal_erase_le {allocations : AList fun _ : Nat => PoolAllocationInfo}
    {index : Fin POOL_COUNT} {ptr size : Nat} {rest : List (Nat × Nat)} :
    settledTotal (allocations.erase ptr) index rest ≤ settledTotal allocations index ((ptr, size) :: rest) := by
  refine (AList.total_le_total fun key info hkey => ?_).trans (AList.total_erase_le _ _ ptr)
  have hne : key ≠ ptr := by
    rintro rfl
    simp at hkey
  exact (weight_cons_of_ne hne).ge

private theorem settledTotal_insert_le {allocations : AList fun _ : Nat => PoolAllocationInfo}
    {index : Fin POOL_COUNT} {ptr size : Nat} {rest : List (Nat × Nat)} :
    settledTotal (allocations.insert ptr ⟨index, size⟩) index rest ≤
      size + settledTotal allocations index rest := by
  unfold settledTotal
  rw [AList.total_insert]
  refine Nat.add_le_add ?_ (AList.total_erase_le _ _ _)
  split
  · exact Nat.zero_le _
  · exact (sizeIn_self index size).le

theorem Compaction.move_dest (c : Compaction) (index : Fin POOL_COUNT) (ptr size : Nat) :
    (c.move index (ptr, size)).dest = Word64.add c.dest size := by
  simp only [Compaction.move]
  split <;> rfl

/-- A block that lies at `dest` is left alone. -/
theorem Compaction.move_of_eq {c : Compaction} {index : Fin POOL_COUNT} {ptr size : Nat}
    (h : ptr = c.dest) : (c.move index (ptr, size)).poolAllocations = c.poolAllocations := by
  simp only [Compaction.move, h, ne_eq, not_true_eq_false, if_false]

/-- Another block is recorded at `dest` and no longer at its address. -/
theorem Compaction.move_of_ne {c : Compaction} {index : Fin POOL_COUNT} {ptr size : Nat}
    (h : ptr ≠ c.dest) : (c.move index (ptr, size)).poolAllocations =
      (c.poolAllocations.insert c.dest ⟨index, size⟩).erase ptr := by
  simp only [Compaction.move, ne_eq, h, not_false_eq_true, if_true]

/-- An entry that is not the next block's stays among the blocks to come or
among the bytes placed. -/
theorem Compacting.entries_of_ne {index : Fin POOL_COUNT} {start placed ptr size : Nat}
    {rest : List (Nat × Nat)} {c : Compaction} (h : Compacting index start placed ((ptr, size) :: rest) c)
    {key size' : Nat} (hne : key ≠ ptr) (hlookup : c.poolAllocations.lookup key = some ⟨index, size'⟩) :
    (key, size') ∈ rest ∨
      ∃ offset, key = (start + offset) % 2 ^ 64 ∧ offset + size' ≤ placed + size := by
  cases h.entries key size' hlookup with
  | inl hmem =>
    cases List.mem_cons.mp hmem with
    | inl heq => exact absurd (congrArg Prod.fst heq) hne
    | inr hmem => exact .inl hmem
  | inr hplaced =>
    obtain ⟨offset, hoffset, hle⟩ := hplaced
    exact .inr ⟨offset, hoffset, by omega⟩

/-- An entry at `dest` is no larger than the next block, when that lies there. -/
theorem Compacting.entry_le {index : Fin POOL_COUNT} {start placed ptr size : Nat}
    {rest : List (Nat × Nat)} {c : Compaction} (h : Compacting index start placed ((ptr, size) :: rest) c)
    (hptr : ptr = c.dest) {size' : Nat}
    (hlookup : c.poolAllocations.lookup ptr = some ⟨index, size'⟩) : size' ≤ size := by
  have hroom := h.room
  rw [sizeSum_cons] at hroom
  cases h.entries ptr size' hlookup with
  | inl hmem =>
    cases List.mem_cons.mp hmem with
    | inl heq => exact (congrArg Prod.snd heq).le
    | inr hmem => exact absurd (List.mem_map_of_mem hmem) (List.nodup_cons.mp h.nodup).1
  | inr hplaced =>
    -- the bytes placed end at `dest`
    obtain ⟨offset, hoffset, hle⟩ := hplaced
    rw [hptr, h.dest] at hoffset
    omega

/-- One block of the loop. -/
theorem Compacting.move {index : Fin POOL_COUNT} {start placed ptr size : Nat}
    {rest : List (Nat × Nat)} {c : Compaction}
    (h : Compacting index start placed ((ptr, size) :: rest) c) :
    Compacting index start (placed + size) rest (c.move index (ptr, size)) := by
  have hnodup := List.nodup_cons.mp h.nodup
  have hroom := h.room
  have hsettled := h.settled
  rw [sizeSum_cons] at hroom
  have hdest : (c.move index (ptr, size)).dest = (start + (placed + size)) % 2 ^ 64 := by
    rw [c.move_dest, h.dest, Word64.add, Nat.mod_add_mod, Nat.add_assoc]
  by_cases hptr : ptr = c.dest
  · have hentry (size' : Nat) (hlookup : c.poolAllocations.lookup ptr = some ⟨index, size'⟩) :
        size' ≤ size := h.entry_le hptr hlookup
    refine ⟨hdest, by omega, hnodup.2, fun key size' hlookup => ?_, ?_⟩
    · rw [Compaction.move_of_eq hptr] at hlookup
      by_cases hkey : key = ptr
      · subst hkey
        have hle := hentry size' hlookup
        exact .inr ⟨placed, hptr.trans h.dest, by omega⟩
      · exact h.entries_of_ne hkey hlookup
    · rw [Compaction.move_of_eq hptr]
      have hcons := settledTotal_cons_le hentry hnodup.1
      omega
  · refine ⟨hdest, by omega, hnodup.2, fun key size' hlookup => ?_, ?_⟩
    · rw [Compaction.move_of_ne hptr] at hlookup
      by_cases hkey : key = ptr
      · rw [hkey, AList.lookup_erase] at hlookup
        cases hlookup
      · rw [AList.lookup_erase_ne hkey] at hlookup
        by_cases hat : key = c.dest
        · rw [hat, AList.lookup_insert] at hlookup
          obtain ⟨-, rfl⟩ := PoolAllocationInfo.mk.inj (Option.some.inj hlookup)
          exact .inr ⟨placed, hat.trans h.dest, le_refl _⟩
        · rw [AList.lookup_insert_ne hat] at hlookup
          exact h.entries_of_ne hkey hlookup
    · -- the entry at `dest` counts for `size`, the one at `ptr` is gone
      rw [Compaction.move_of_ne hptr]
      calc settledTotal ((c.poolAllocations.insert c.dest ⟨index, size⟩).erase ptr) index rest
        _ ≤ settledTotal (c.poolAllocations.insert c.dest ⟨index, size⟩) index ((ptr, size) :: rest) :=
          settledTotal_erase_le
        _ ≤ size + settledTotal c.poolAllocations index ((ptr, size) :: rest) := settledTotal_insert_le
        _ ≤ placed + size := by omega

/-- The whole loop. -/
theorem Compacting.run {index : Fin POOL_COUNT} {start : Nat} (rest : List (Nat × Nat)) :
    ∀ {placed : Nat} {c : Compaction}, Compacting index start placed rest c →
      Compacting index start (placed + sizeSum rest) []
        (rest.foldl (fun c allocation => c.move index allocation) c) := by
  induction rest with
  | nil =>
    intro placed c h
    exact h
  | cons allocation rest ih =>
    intro placed c h
    rw [sizeSum_cons, ← Nat.add_assoc]
    exact ih h.move

theorem Compaction.move_other {index other : Fin POOL_COUNT} (hother : other ≠ index)
    (c : Compaction) (allocation : Nat × Nat) :
    poolTotal (c.move index allocation).poolAllocations other ≤ poolTotal c.poolAllocations other := by
  obtain ⟨ptr, size⟩ := allocation
  simp only [Compaction.move]
  split
  · refine (AList.total_erase_le _ _ _).trans ?_
    have hinsert := poolTotal_insert_le c.poolAllocations other c.dest ⟨index, size⟩
    rwa [sizeIn_of_ne (Ne.symm hother), Nat.zero_add] at hinsert
  · exact Nat.le_refl _

theorem compact_other {index other : Fin POOL_COUNT} (hother : other ≠ index)
    (manager : OptimizedUnifiedMemoryManager) :
    poolTotal (manager.compact index).poolAllocations other ≤ poolTotal manager.poolAllocations other := by
  unfold compact
  refine List.foldlRecOn (motive := fun c : Compaction =>
    poolTotal c.poolAllocations other ≤ poolTotal manager.poolAllocations other) _ _ ?_ ?_
  · exact Nat.le_refl _
  · intro c hc allocation _
    exact (c.move_other hother allocation).trans hc

/-- After the loop `dest` is as far from the start of the pool as the recorded
sizes add up to. -/
theorem compact_compacting (manager : OptimizedUnifiedMemoryManager) (index : Fin POOL_COUNT)
    (hstart : (manager.pools index).start < 2 ^ 64)
    (hroom : poolTotal manager.poolAllocations index < 2 ^ 64) :
    Compacting index (manager.pools index).start (poolTotal manager.poolAllocations index) []
      (manager.compact index) := by
  rw [← sizeSum_liveAllocations] at hroom ⊢
  rw [← Nat.zero_add (sizeSum _)]
  refine Compacting.run _ ⟨?_, by omega, nodup_liveAllocations manager index, ?_, ?_⟩
  · exact (Nat.mod_eq_of_lt hstart).symm
  · intro ptr size hlookup
    exact .inl (mem_liveAllocations.mpr hlookup)
  · refine (AList.total_eq_zero fun ptr info hlookup => ?_).le
    by_cases hindex : info.poolIndex = index
    · subst hindex
      rw [if_pos (List.mem_map_of_mem (mem_liveAllocations.mpr hlookup))]
    · rw [sizeIn_of_ne hindex, ite_self]

theorem Compacting.poolTotal_le {index : Fin POOL_COUNT} {start placed : Nat} {c : Compaction}
    (h : Compacting index start placed [] c) : poolTotal c.poolAllocations index ≤ placed := by
  have hsettled := h.settled
  simp only [settledTotal, List.map_nil, List.not_mem_nil, if_false] at hsettled
  exact hsettled

variable {starts : Fin POOL_COUNT → Nat} {manager : OptimizedUnifiedMemoryManager}

/-- Compaction sets the counter to the sum of the recorded sizes. -/
theorem Accounted.defragmentPool_used (h : manager.Accounted starts) (hstarts : ∀ index, starts index < 2 ^ 64)
    (index : Fin POOL_COUNT) :
    Word64.sub (manager.compact index).dest (manager.pools index).start =
      poolTotal manager.poolAllocations index := by
  have htotal := h.total_le index
  have hused := h.used_lt index
  have hstart := hstarts index
  rw [(compact_compacting manager index (by rw [h.start]; exact hstart) (by omega)).dest, h.start]
  exact Word64.sub_add_cancel_left (by omega)

theorem Accounted.defragmentPool (h : manager.Accounted starts) (hstarts : ∀ index, starts index < 2 ^ 64)
    (index : Fin POOL_COUNT) : (manager.defragmentPool index).Accounted starts := by
  simp only [OptimizedUnifiedMemoryManager.defragmentPool]
  split
  · exact h
  · have htotal := h.total_le index
    have hused := h.used_lt index
    have hcompacting := compact_compacting manager index (by rw [h.start]; exact hstarts index) (by omega)
    refine h.of_update rfl rfl rfl rfl ?_ ?_ ?_
    · simp only [h.defragmentPool_used hstarts]
      exact hcompacting.poolTotal_le
    · simp only [h.defragmentPool_used hstarts]
      exact htotal.trans (h.used_le index)
    · intro other hother
      exact compact_other hother manager

/-- Taking a block back lowers counter and recorded sizes alike. -/
theorem Accounted.releaseBlock (h : manager.Accounted starts) {ptr : Nat} {info : PoolAllocationInfo}
    (hlookup : manager.poolAllocations.lookup ptr = some info) :
    (manager.releaseBlock ptr info).Accounted starts := by
  have htotal (index : Fin POOL_COUNT) : poolTotal manager.poolAllocations index =
      sizeIn index info + poolTotal (manager.poolAllocations.erase ptr) index :=
    AList.total_erase_of_lookup _ hlookup
  have hle := h.total_le info.poolIndex
  rw [htotal, sizeIn, if_pos rfl] at hle
  have hsub : Word64.sub (manager.pools info.poolIndex).used info.size =
      (manager.pools info.poolIndex).used - info.size := by
    have hused := h.used_lt info.poolIndex
    exact Word64.sub_eq_of_le (by omega) (by omega)
  refine h.of_update rfl rfl rfl rfl ?_ ?_ ?_
  · simp only [OptimizedUnifiedMemoryManager.releaseBlock, hsub]
    omega
  · simp only [hsub]
    exact (Nat.sub_le _ _).trans (h.used_le info.poolIndex)
  · intro index _
    exact AList.total_erase_le _ _ _

theorem Accounted.freeMemory (h : manager.Accounted starts) (hstarts : ∀ index, starts index < 2 ^ 64)
    (ptr : Nat) : (manager.freeMemory ptr).1.Accounted starts := by
  simp only [OptimizedUnifiedMemoryManager.freeMemory]
  cases hlookup : manager.poolAllocations.lookup ptr with
  | some info =>
    have hreleased := h.releaseBlock hlookup
    simp only
    split
    · exact hreleased.defragmentPool hstarts info.poolIndex
    · exact hreleased
  | none =>
    cases hpages : manager.pageAllocations.lookup ptr with
    | none => exact h
    | some info =>
      obtain ⟨_, _, _, hunmapped⟩ := manager.unmapPages_frame ptr info.numPages
      have hpools := congrArg pools hunmapped
      have hallocations := congrArg poolAllocations hunmapped
      exact h.of_pools hpools hallocations

end Kernel.Memory.OptimizedUnifiedMemoryManager
