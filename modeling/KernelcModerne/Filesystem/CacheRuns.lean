import KernelcModerne.Lib.Transition
import KernelcModerne.Filesystem.CacheOptimization

open Transition

namespace Kernel.FileSystem.MultiLevelCache

/-- A call on the cache, at a time and with what the code outside decides. -/
inductive CacheOp where
  | put (key : String) (data : Data) (dirty : Bool) (now : Nat)
  | get (promotion : Promotion) (key : String) (now : Nat)
  | expandLevel (level size : Nat)
  | optimizeCache (order : EvictionOrder) (now : Nat)

def step (self : MultiLevelCache) : CacheOp → Option MultiLevelCache
  | .put key data dirty now => some (self.put key data dirty now)
  | .get promotion key now => some (self.get promotion key now).1
  | .expandLevel level size => self.expandLevel level size
  | .optimizeCache order now => self.optimizeCache order now

theorem constructed_uniqueKeys : UniqueKeys constructed.levels := by
  intro key
  simp [constructed, addLevel, accessCount_cons]

theorem UniqueKeys.step {self after : MultiLevelCache} (h : UniqueKeys self.levels) {op : CacheOp}
    (hstep : self.step op = some after) : UniqueKeys after.levels := by
  cases op with
  | put key data dirty now =>
    cases hstep
    exact h.put key data dirty now
  | get promotion key now =>
    cases hstep
    exact h.get promotion key now
  | expandLevel level size =>
    exact h.of_le fun key => (accessCount_congr (expandLevel_data hstep) key).le
  | optimizeCache order now => exact h.optimizeCache hstep

/-- An optimization leaves every dirty entry in the cache. None of the cache's
operations writes an entry back. -/
def KeepsDirty (self : MultiLevelCache) (op : CacheOp) (after : MultiLevelCache) : Prop :=
  match op with
  | .optimizeCache _ _ => ∀ level ∈ self.levels, ∀ key entry,
    level.data.lookup key = some entry → entry.dirty = true →
      ∃ level' ∈ after.levels, level'.data.lookup key = some entry
  | _ => True

/-- In each level that is more than 90% full, the entries before a dirty one in
the order of eviction leave, once gone, less than 70%. -/
def SparesDirty (self : MultiLevelCache) (op : CacheOp) : Prop :=
  match op with
  | .optimizeCache order _ => ∀ level ∈ self.levels, level.TooFull →
    ∀ first key timestamp rest, level.oldestFirst order = first ++ (key, timestamp) :: rest →
      ∀ entry, level.data.lookup key = some entry → entry.dirty = true →
        10 * (level.usedSize - CacheLevel.sizesOf level.data first) < 7 * level.size
  | _ => True

theorem optimizedLevel_mem {self after : MultiLevelCache} {order : EvictionOrder} {now : Nat}
    (h : self.optimizeCache order now = some after) {level' : CacheLevel} :
    level' ∈ after.levels ↔ ∃ level ∈ self.levels, optimizedLevel order level = level' := by
  rw [optimizeCache_levels h, List.mem_map]

/-- Where no key is in two levels, an optimization keeps the dirty entries
exactly when eviction ends before it gets to one. -/
theorem keepsDirty_iff {self after : MultiLevelCache} (hunique : UniqueKeys self.levels)
    {order : EvictionOrder} {now : Nat} (hstep : self.optimizeCache order now = some after) :
    self.KeepsDirty (.optimizeCache order now) after ↔ self.SparesDirty (.optimizeCache order now) := by
  constructor
  · intro hkeeps level hlevel hfull first key timestamp rest hsplit entry hlookup hdirty
    by_contra hlate
    have hgone := level.evict_lookup order hsplit hfull
    rw [if_neg hlate] at hgone
    obtain ⟨level', hlevel', hafter⟩ := hkeeps level hlevel key entry hlookup hdirty
    obtain ⟨other, hother, rfl⟩ := (optimizedLevel_mem hstep).mp hlevel'
    -- the level that still has the key is the one that lost it
    have hkept : (other.evict order).data.lookup key = some entry := hafter
    have hin : key ∈ other.data := by
      cases other.evict_lookup_eq_or order key with
      | inl hsame => exact AList.mem_of_lookup (hsame.symm.trans hkept)
      | inr hnone =>
        rw [hnone] at hkept
        cases hkept
    have hsame := eq_of_accessCount_le (hunique key) hlevel hother
      (AList.mem_of_lookup hlookup) hin
    rw [← hsame, hgone] at hkept
    cases hkept
  · intro hspares level hlevel key entry hlookup hdirty
    refine ⟨_, (optimizedLevel_mem hstep).mpr ⟨level, hlevel, rfl⟩, ?_⟩
    change (level.evict order).data.lookup key = some entry
    by_cases hfull : level.TooFull
    · have hkey : key ∈ (level.oldestFirst order).map Prod.fst :=
        (level.mem_oldestFirst order).mpr (AList.mem_of_lookup hlookup)
      obtain ⟨⟨_, timestamp⟩, hmem, rfl⟩ := List.mem_map.mp hkey
      obtain ⟨first, rest, hsplit⟩ := List.append_of_mem hmem
      rw [level.evict_lookup order hsplit hfull,
        if_pos (hspares level hlevel hfull first _ timestamp rest hsplit entry hlookup hdirty)]
      exact hlookup
    · rw [CacheLevel.evict, if_neg hfull]
      exact hlookup

/-- The optimizations of a run keep the dirty entries exactly when eviction ends
before it gets to one in each of them. -/
theorem along_keepsDirty_iff (ops : List CacheOp) :
    Along step KeepsDirty constructed ops ↔ Guarded step SparesDirty constructed ops := by
  apply along_iff_along (fun self => UniqueKeys self.levels) _ _ ops constructed_uniqueKeys
  · intro self op after hunique hstep
    cases op with
    | optimizeCache order now => exact keepsDirty_iff hunique hstep
    | put key data dirty now => exact Iff.rfl
    | get promotion key now => exact Iff.rfl
    | expandLevel level size => exact Iff.rfl
  · exact fun self op after hunique hstep _ => hunique.step hstep

/-- A first level with one dirty entry. -/
def dirtyLevel (data : Data) : CacheLevel where
  size := 1 * 1024 * 1024
  data := (∅ : AList fun _ : String => CacheEntry).insert "a" ⟨data, 0, true⟩
  hit_count := 0
  miss_count := 0

theorem size_dirtyLevel (data : Data) : (dirtyLevel data).size = 1 * 1024 * 1024 := rfl

theorem usedSize_dirtyLevel (data : Data) : (dirtyLevel data).usedSize = data.length := by
  simp [CacheLevel.usedSize, dirtyLevel, AList.total]

/-- A modified entry of a million bytes is alone in its level and evicted. -/
theorem dirty_entry_evicted : ¬ ∀ ops, Along step KeepsDirty constructed ops := by
  intro hall
  obtain ⟨data, hdata⟩ : ∃ data : Data, data.length = 1000000 := ⟨_, List.length_replicate (a := 0)⟩
  obtain ⟨_, hoptimize⟩ := hall [.put "a" data true 0, .optimizeCache .stable 1] _ rfl
  have hdefined : ((constructed.put "a" data true 0).optimizeCache .stable 1).isSome = true :=
    optimizeCache_isSome (by rw [length_put]; decide) _ _
  obtain ⟨after, hafter⟩ := Option.isSome_iff_exists.mp hdefined
  have hunique := constructed_uniqueKeys.put "a" data true 0
  have hspares := (keepsDirty_iff hunique hafter).mp (hoptimize after hafter).1
  have hmem : dirtyLevel data ∈ (constructed.put "a" data true 0).levels := List.mem_cons_self
  have hfull : (dirtyLevel data).TooFull := by
    rw [CacheLevel.TooFull, usedSize_dirtyLevel, hdata, size_dirtyLevel]
    decide
  have hspared := hspares (dirtyLevel data) hmem hfull [] "a" 0 [] rfl _ rfl rfl
  rw [usedSize_dirtyLevel, hdata, CacheLevel.sizesOf_nil, size_dirtyLevel] at hspared
  exact absurd hspared (by decide)

/-- What `optimizeCache` has taken out of the cache. -/
def gone (before after : MultiLevelCache) (key : String) : Bool :=
  accessCount before.levels key > 0 ∧ accessCount after.levels key = 0

/-- An optimization takes entries out of the cache and changes no other. -/
theorem delivered_optimizeCache {self after : MultiLevelCache} (hunique : UniqueKeys self.levels)
    {order : EvictionOrder} {now : Nat} (h : self.optimizeCache order now = some after) (key : String) :
    after.delivered key = if gone self after key then none else self.delivered key := by
  have hafter : after.delivered key = self.delivered key ∨ after.delivered key = none := by
    rw [delivered, optimizeCache_levels h]
    apply contents_map_eq_or _ self.levels (hunique key)
    exact fun level => level.evict_lookup_eq_or order key
  by_cases hgone : gone self after key
  · rw [if_pos hgone]
    simp only [gone, decide_eq_true_eq] at hgone
    exact contents_eq_none_iff.mpr hgone.2
  · rw [if_neg hgone]
    simp only [gone, decide_eq_true_eq, not_and] at hgone
    cases hafter with
    | inl hsame => exact hsame
    | inr hnone =>
      have hcount : accessCount self.levels key = 0 := by
        by_contra hpos
        exact hgone (Nat.pos_of_ne_zero hpos) (contents_eq_none_iff.mp hnone)
      exact hnone.trans (contents_eq_none_iff.mpr hcount).symm

/-- A map that forgets: the value last put under each key, and whether it has
been evicted since. -/
structure EvictingMap where
  latest : String → Option Data
  evicted : String → Bool

namespace EvictingMap

def empty : EvictingMap where
  latest _ := none
  evicted _ := false

def put (self : EvictingMap) (key : String) (data : Data) : EvictingMap where
  latest := Function.update self.latest key (some data)
  evicted := Function.update self.evicted key false

def evict (self : EvictingMap) (gone : String → Bool) : EvictingMap where
  latest := self.latest
  evicted key := self.evicted key || gone key

/-- What the map still has for a key. -/
def delivered (self : EvictingMap) (key : String) : Option Data :=
  if self.evicted key then none else self.latest key

theorem delivered_put (self : EvictingMap) (key : String) (data : Data) :
    (self.put key data).delivered = Function.update self.delivered key (some data) := by
  funext other
  by_cases hother : other = key
  · subst hother
    simp [delivered, put]
  · simp [delivered, put, hother]

theorem delivered_evict (self : EvictingMap) (gone : String → Bool) (key : String) :
    (self.evict gone).delivered key = if gone key then none else self.delivered key := by
  cases hevicted : self.evicted key <;> cases hgone : gone key <;> simp [delivered, evict, hevicted, hgone]

/-- A miss is explained by the puts and the evictions. -/
theorem of_delivered_eq_none {self : EvictingMap} {key : String} (h : self.delivered key = none) :
    self.latest key = none ∨ self.evicted key = true := by
  rw [delivered] at h
  split at h
  · exact .inr ‹_›
  · exact .inl h

theorem of_delivered_eq_some {self : EvictingMap} {key : String} {data : Data}
    (h : self.delivered key = some data) : self.latest key = some data := by
  rw [delivered] at h
  split at h
  · cases h
  · exact h

end EvictingMap

/-- A cache, and the map that its calls make. -/
structure CacheClient where
  cache : MultiLevelCache
  map : EvictingMap

namespace CacheClient

def constructed : CacheClient where
  cache := .constructed
  map := .empty

/-- The map that a call leaves, where the cache is `after` it. -/
def mapAfter (client : CacheClient) (op : CacheOp) (after : MultiLevelCache) : EvictingMap :=
  match op with
  | .put key data _ _ => client.map.put key data
  | .optimizeCache _ _ => client.map.evict (gone client.cache after)
  | .get _ _ _ | .expandLevel _ _ => client.map

def step (client : CacheClient) (op : CacheOp) : Option CacheClient :=
  (client.cache.step op).map fun after => { cache := after, map := client.mapAfter op after }

/-- Each key is in at most one level. `get` delivers what was last put under the
key or misses, and misses only a key never put or evicted since. -/
def ServesLatest (client : CacheClient) : Prop :=
  UniqueKeys client.cache.levels ∧ ∀ promotion key now,
    match (client.cache.get promotion key now).2 with
    | some data => client.map.latest key = some data
    | none => client.map.latest key = none ∨ client.map.evicted key = true

structure Refines (client : CacheClient) : Prop where
  unique : UniqueKeys client.cache.levels
  levels : client.cache.levels.length = 3
  delivered : client.cache.delivered = client.map.delivered

theorem constructed_refines : Refines constructed where
  unique := constructed_uniqueKeys
  levels := rfl
  delivered := funext MultiLevelCache.delivered_constructed

theorem Refines.servesLatest {client : CacheClient} (h : client.Refines) : client.ServesLatest := by
  refine ⟨h.unique, fun promotion key now => ?_⟩
  rw [(client.cache.get_spec promotion key now).1, h.delivered]
  cases hdelivered : client.map.delivered key with
  | some data => exact EvictingMap.of_delivered_eq_some hdelivered
  | none => exact EvictingMap.of_delivered_eq_none hdelivered

theorem Refines.step {client after : CacheClient} (h : client.Refines) {op : CacheOp}
    (hstep : client.step op = some after) : after.Refines := by
  obtain ⟨cache, hcache, rfl⟩ := Option.map_eq_some_iff.mp hstep
  have hunique := h.unique.step hcache
  cases op with
  | put key data dirty now =>
    obtain rfl := Option.some.inj hcache
    have hne : client.cache.levels ≠ [] := List.ne_nil_of_length_pos (by rw [h.levels]; decide)
    refine ⟨hunique, (length_put client.cache key data dirty now).trans h.levels, ?_⟩
    exact (put_spec hne key data dirty now).trans
      ((congrArg (Function.update · key (some data)) h.delivered).trans
        (client.map.delivered_put key data).symm)
  | get promotion key now =>
    obtain rfl := Option.some.inj hcache
    exact ⟨hunique, (length_get client.cache promotion key now).trans h.levels,
      (client.cache.get_spec promotion key now).2.trans h.delivered⟩
  | expandLevel level size =>
    have hdata := expandLevel_data hcache
    have hlength := congrArg List.length hdata
    rw [List.length_map, List.length_map] at hlength
    exact ⟨hunique, hlength.trans h.levels, (contents_congr hdata).trans h.delivered⟩
  | optimizeCache order now =>
    refine ⟨hunique, ?_, funext fun key => ?_⟩
    · change cache.levels.length = 3
      rw [optimizeCache_levels hcache, List.length_map, h.levels]
    · rw [delivered_optimizeCache h.unique hcache, h.delivered]
      exact (client.map.delivered_evict _ key).symm

/-- The cache refines a map that forgets. -/
theorem always_servesLatest (ops : List CacheOp) : Always step ServesLatest constructed ops := by
  have hrefines : Always step Refines constructed ops :=
    always_of_step (fun _ _ _ h hstep => h.step hstep) ops constructed_refines
  exact hrefines.imp fun _ h => h.servesLatest

end CacheClient

end Kernel.FileSystem.MultiLevelCache
