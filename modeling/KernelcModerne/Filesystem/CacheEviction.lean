import KernelcModerne.Filesystem.CacheOptimization

namespace Kernel.FileSystem

namespace CacheLevel

variable {data : AList fun _ : String => CacheEntry} {usedSize totalSize : Nat}

/-- The values of `removedSize` that the eviction loop subtracts from `usedSize`. -/
def removedSizes (usedSize totalSize : Nat) : List (String × Nat) → Nat →
    (AList fun _ : String => CacheEntry) → List Nat
  | [], _, _ => []
  | entry :: rest, removedSize, data =>
    removedSize ::
      if 10 * (usedSize - removedSize) < 7 * totalSize then []
      else removedSizes usedSize totalSize rest (removedSize + sizeOf data entry.1) (data.erase entry.1)

/-- The loop has removed the entries of a prefix whenever it subtracts. -/
theorem exists_of_mem_removedSizes {entries : List (String × Nat)}
    (hnodup : (entries.map Prod.fst).Nodup) {removedSize removed : Nat}
    (h : removed ∈ removedSizes usedSize totalSize entries removedSize data) :
    ∃ first rest, entries = first ++ rest ∧ removed = removedSize + sizesOf data first := by
  induction entries generalizing removedSize data with
  | nil => cases h
  | cons entry rest ih =>
    rw [List.map_cons, List.nodup_cons] at hnodup
    rw [removedSizes, List.mem_cons] at h
    cases h with
    | inl hnow => exact ⟨[], entry :: rest, rfl, hnow⟩
    | inr hlater =>
      split at hlater
      · cases hlater
      · obtain ⟨first, last, rfl, rfl⟩ := ih hnodup.2 hlater
        refine ⟨entry :: first, last, rfl, ?_⟩
        have hentry : entry.1 ∉ first.map Prod.fst := by
          intro hmem
          exact hnodup.1 (by simp [hmem])
        rw [sizesOf_erase hentry, sizesOf_cons, Nat.add_assoc]

theorem total_erase (data : AList fun _ : String => CacheEntry) (key : String) :
    ((data.erase key).total fun _ entry => entry.data.length) + sizeOf data key =
      data.total fun _ entry => entry.data.length := by
  cases hlookup : data.lookup key with
  | none => rw [AList.total_erase_of_lookup_none _ hlookup, sizeOf, hlookup]; rfl
  | some entry =>
    rw [AList.total_erase_of_lookup _ hlookup, sizeOf, hlookup, Nat.add_comm]
    rfl

/-- The loop ends below 70%, or with nothing left. -/
theorem evictOldest_held (entries : List (String × Nat)) (hnodup : (entries.map Prod.fst).Nodup)
    {removedSize : Nat} (hused : (data.total fun _ entry => entry.data.length) + removedSize = usedSize)
    (hentries : sizesOf data entries = data.total fun _ entry => entry.data.length) :
    10 * (evictOldest usedSize totalSize entries removedSize data).total (fun _ entry => entry.data.length) ≤
      7 * totalSize := by
  induction entries generalizing removedSize data with
  | nil =>
    rw [evictOldest, ← hentries, sizesOf_nil]
    exact Nat.zero_le _
  | cons entry rest ih =>
    rw [List.map_cons, List.nodup_cons] at hnodup
    rw [evictOldest]
    split
    · omega
    · have herase := total_erase data entry.1
      rw [sizesOf_cons] at hentries
      refine ih hnodup.2 (by omega) ?_
      rw [sizesOf_erase hnodup.1]
      omega

/-- What an optimization makes of a level. -/
structure Evicted (order : EvictionOrder) (level level' : CacheLevel) : Prop where
  size_eq : level'.size = level.size
  held : 10 * level'.usedSize ≤ 9 * level'.size
  /-- No entry comes from another level. -/
  stays : ∀ key entry, level'.data.lookup key = some entry → level.data.lookup key = some entry
  kept : ¬ level.TooFull → level'.data = level.data
  oldest : ∀ key entry other survivor, level.data.lookup key = some entry → level'.data.lookup key = none →
    level'.data.lookup other = some survivor → entry.timestamp ≤ survivor.timestamp
  /-- Before each eviction, the last one too, the level held 70% or more. -/
  needed : ∀ first key timestamp rest, level.oldestFirst order = first ++ (key, timestamp) :: rest →
    level'.data.lookup key = none → 7 * level.size ≤ 10 * (level.usedSize - sizesOf level.data first)
  no_wrap : ∀ removedSize ∈ removedSizes level.usedSize level.size (level.oldestFirst order) 0 level.data,
    removedSize ≤ level.usedSize

theorem usedSize_evict_le (level : CacheLevel) (order : EvictionOrder) :
    10 * (level.evict order).usedSize ≤ 9 * level.size := by
  by_cases hfull : level.TooFull
  · rw [evict, if_pos hfull]
    have hheld : 10 * (evictOldest level.usedSize level.size (level.oldestFirst order) 0 level.data).total
        (fun _ entry => entry.data.length) ≤ 7 * level.size :=
      evictOldest_held _ (level.nodup_oldestFirst order) rfl (level.sizesOf_oldestFirst order)
    exact hheld.trans (Nat.mul_le_mul_right _ (by decide))
  · rw [evict, if_neg hfull]
    exact Nat.le_of_not_lt hfull

theorem size_optimizedLevel (order : EvictionOrder) (level : CacheLevel) :
    (MultiLevelCache.optimizedLevel order level).size = level.size := by
  change (level.evict order).size = _
  rw [evict]
  split <;> rfl

theorem evicted_optimizedLevel (order : EvictionOrder) (level : CacheLevel) :
    Evicted order level (MultiLevelCache.optimizedLevel order level) where
  size_eq := size_optimizedLevel order level
  held := by
    rw [size_optimizedLevel]
    exact level.usedSize_evict_le order
  stays key entry h := by
    cases level.evict_lookup_eq_or order key with
    | inl hsame => exact hsame.symm.trans h
    | inr hnone => exact absurd (h.symm.trans hnone) (Option.some_ne_none _)
  kept hroom := by
    change (level.evict order).data = _
    rw [evict, if_neg hroom]
  oldest key entry other survivor := level.evict_oldest order
  needed first key timestamp rest hsplit hgone := by
    have hkey : key ∈ level.data := (level.mem_oldestFirst order).mp (by simp [hsplit])
    have hfull : level.TooFull := by
      by_contra hroom
      have hsame : (level.evict order).data = level.data := by rw [evict, if_neg hroom]
      change (level.evict order).data.lookup key = none at hgone
      rw [hsame, AList.lookup_eq_none] at hgone
      exact hgone hkey
    by_contra hlow
    change (level.evict order).data.lookup key = none at hgone
    rw [level.evict_lookup order hsplit hfull, if_pos (by omega), AList.lookup_eq_none] at hgone
    exact hgone hkey
  no_wrap removedSize h := by
    obtain ⟨first, rest, hsplit, rfl⟩ := exists_of_mem_removedSizes (level.nodup_oldestFirst order) h
    rw [Nat.zero_add]
    exact level.sizesOf_le_usedSize order hsplit

end CacheLevel

namespace MultiLevelCache

/-- An optimization of the three levels is defined and evicts from each level on its own. -/
theorem optimizeCache_evicts (self : MultiLevelCache) (hlevels : self.levels.length = 3)
    (order : EvictionOrder) (now : Nat) :
    ∃ after : MultiLevelCache, self.optimizeCache order now = some after ∧ after.levels.length = 3 ∧
      ∀ (i : Nat) (level level' : CacheLevel), self.levels[i]? = some level →
        after.levels[i]? = some level' → CacheLevel.Evicted order level level' := by
  obtain ⟨after, hafter⟩ := Option.isSome_iff_exists.mp
    (self.optimizeCache_isSome (by omega) order now)
  have hmap := optimizeCache_levels hafter
  refine ⟨after, hafter, by rw [hmap, List.length_map, hlevels], ?_⟩
  intro i level level' hlevel hlevel'
  rw [hmap, List.getElem?_map, hlevel, Option.map_some, Option.some_inj] at hlevel'
  rw [← hlevel']
  exact CacheLevel.evicted_optimizedLevel order level

/-- Ten bytes, all used by two entries; the older one goes. -/
def fullLevel : CacheLevel where
  size := 10
  data := ((∅ : AList fun _ : String => CacheEntry).insert "old" ⟨List.replicate 4 0, 1, false⟩).insert "new"
    ⟨List.replicate 6 0, 2, false⟩
  hit_count := 0
  miss_count := 0

theorem optimizeCache_evicts_full :
    fullLevel.TooFull ∧ ∃ after : MultiLevelCache,
      MultiLevelCache.optimizeCache ⟨[fullLevel, fullLevel, fullLevel]⟩ .stable 3 = some after ∧
      after.levels.length = 3 ∧ ∀ (i : Nat) (level level' : CacheLevel),
        [fullLevel, fullLevel, fullLevel][i]? = some level → after.levels[i]? = some level' →
          CacheLevel.Evicted .stable level level' :=
  ⟨by decide, optimizeCache_evicts ⟨[fullLevel, fullLevel, fullLevel]⟩ rfl .stable 3⟩

end MultiLevelCache

end Kernel.FileSystem
