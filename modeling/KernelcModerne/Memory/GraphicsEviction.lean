import KernelcModerne.Memory.GraphicsCache

namespace Kernel.Memory.EnhancedGraphicsResourceManager

/-- An entry without priority, and no such entry was used less recently. -/
structure LeastUsed (manager : EnhancedGraphicsResourceManager) (id : UInt64) (resource : ResourceTracker) :
    Prop where
  cached : manager.gpuCache.lookup id = some resource
  free : resource.isPriority = false
  least : ∀ other tracker, manager.gpuCache.lookup other = some tracker → tracker.isPriority = false →
    resource.lastUseTime ≤ tracker.lastUseTime

/-- A least recently used entry without priority is gone, with its size, or
there was none and nothing has changed. -/
def EvictsLeastUsed (manager after : EnhancedGraphicsResourceManager) : Prop :=
  (∃ id resource, manager.LeastUsed id resource ∧ after.gpuCache = manager.gpuCache.erase id ∧
    after.currentCacheSize = manager.currentCacheSize - resource.size) ∨
  (∀ id resource, manager.gpuCache.lookup id = some resource → resource.isPriority = true) ∧ after = manager

variable {self : EnhancedGraphicsResourceManager}

/-- Nothing is evicted though there is an entry to evict. -/
theorem LeastUsed.not_evictsLeastUsed_self {id : UInt64} {resource : ResourceTracker}
    (h : self.LeastUsed id resource) : ¬ self.EvictsLeastUsed self := by
  rintro (⟨gone, tracker, hgone, hcache, _⟩ | ⟨hpriority, _⟩)
  · have hlookup := hgone.cached
    rw [hcache, AList.lookup_erase] at hlookup
    cases hlookup
  · have hfree := h.free
    rw [hpriority id resource h.cached] at hfree
    cases hfree

/-- The search keeps a finding that no entry to come is older than. -/
theorem foldl_older_of_le {order : List UInt64} {oldest : UInt64 × UInt64}
    (hle : ∀ id resource, self.gpuCache.lookup id = some resource → resource.isPriority = false →
      oldest.1 ≤ resource.lastUseTime) : order.foldl self.older oldest = oldest := by
  induction order with
  | nil => rfl
  | cons id order ih =>
    have hstep : self.older oldest id = oldest := by
      unfold older
      cases hlookup : self.gpuCache.lookup id with
      | none => rfl
      | some resource =>
        refine if_neg ?_
        simp only [Bool.and_eq_true, Bool.not_eq_true', decide_eq_true_eq, not_and, UInt64.not_lt]
        exact hle id resource hlookup
    rw [List.foldl_cons, hstep, ih]

theorem evictLeastUsed_of_targetId_eq_zero {order : List UInt64} (h : self.targetId order = 0) :
    self.evictLeastUsed order = self := if_neg (not_not.mpr h)

theorem lt_uint64_max {time : UInt64} (h : time ≠ UINT64_MAX) : time < UINT64_MAX := by
  rw [UInt64.lt_iff_toNat_lt]
  have hne : time.toNat ≠ UINT64_MAX.toNat := fun heq => h (UInt64.toNat_inj.mp heq)
  have hbound := time.toNat_lt
  have hmax : UINT64_MAX.toNat = 2 ^ 64 - 1 := rfl
  omega

/-- A least recently used entry of the last time stamp is not found. -/
theorem LeastUsed.targetId_of_latest {id : UInt64} {resource : ResourceTracker} (h : self.LeastUsed id resource)
    (hlatest : resource.lastUseTime = UINT64_MAX) (order : List UInt64) : self.targetId order = 0 := by
  have hkept : order.foldl self.older (UINT64_MAX, 0) = (UINT64_MAX, 0) := by
    apply foldl_older_of_le
    intro other tracker hlookup hfree
    rw [← hlatest]
    exact h.least other tracker hlookup hfree
  rw [targetId, hkept]

/-- A least recently used entry of id 0 is not told from none, where the search
comes to it first. -/
theorem LeastUsed.targetId_of_zero {resource : ResourceTracker} (h : self.LeastUsed 0 resource)
    (order : List UInt64) : self.targetId (0 :: order) = 0 := by
  by_cases hlatest : resource.lastUseTime = UINT64_MAX
  · exact h.targetId_of_latest hlatest _
  have hfirst : self.older (UINT64_MAX, 0) 0 = (resource.lastUseTime, 0) := by
    simp [older, h.cached, h.free, lt_uint64_max hlatest]
  have hkept : order.foldl self.older (resource.lastUseTime, 0) = (resource.lastUseTime, 0) :=
    foldl_older_of_le fun other tracker hlookup hfree => h.least other tracker hlookup hfree
  rw [targetId, List.foldl_cons, hfirst, hkept]

/-- Where the search finds nothing, there is nothing to evict, or what there is
looks like nothing. -/
theorem leastUsed_of_targetId_eq_zero {order : List UInt64} (horder : order.Perm self.gpuCache.keys)
    (hnone : self.targetId order = 0) {id : UInt64} {resource : ResourceTracker}
    (hlookup : self.gpuCache.lookup id = some resource) (hfree : resource.isPriority = false) :
    ∃ target tracker, self.LeastUsed target tracker ∧ (target = 0 ∨ tracker.lastUseTime = UINT64_MAX) := by
  have hstart : self.Oldest [] (UINT64_MAX, 0) := ⟨.inl rfl, fun _ h => absurd h List.not_mem_nil⟩
  have holdest := hstart.foldl order
  have hleast (other : UInt64) (tracker : ResourceTracker) (hother : self.gpuCache.lookup other = some tracker) :=
    holdest.least other (horder.mem_iff.mpr (AList.mem_of_lookup hother)) tracker hother
  cases holdest.found with
  | inl hlatest =>
    rw [hlatest] at hleast
    have htime : resource.lastUseTime = UINT64_MAX := by
      by_contra hne
      exact UInt64.not_lt.mpr (hleast id resource hlookup hfree) (lt_uint64_max hne)
    exact ⟨id, resource, ⟨hlookup, hfree, htime ▸ hleast⟩, .inr htime⟩
  | inr hfound =>
    obtain ⟨tracker, htarget, hpriority, htime⟩ := hfound
    rw [← htime] at hleast
    exact ⟨_, tracker, ⟨htarget, hpriority, hleast⟩, .inl hnone⟩

/-- What is found is evicted, and it is a least recently used entry. -/
theorem evictsLeastUsed_of_targetId_ne_zero {order : List UInt64} (horder : order.Perm self.gpuCache.keys)
    (hfound : self.targetId order ≠ 0) : self.EvictsLeastUsed (self.evictLeastUsed order) := by
  obtain ⟨target, hlookup, hpriority, hleast⟩ := targetId_spec horder hfound
  refine .inl ⟨self.targetId order, target, ⟨hlookup, hpriority, hleast⟩, ?_⟩
  cases self.evictLeastUsed_cases order with
  | inl h =>
    obtain ⟨resource, _, hresource, _, hevict⟩ := h
    obtain rfl : target = resource := Option.some.inj (hlookup.symm.trans hresource)
    rw [hevict]
    exact ⟨rfl, rfl⟩
  | inr h =>
    exfalso
    cases h.1 with
    | inl hzero => exact hfound hzero
    | inr hnone => simp [hlookup] at hnone

/-- Whatever order the loop visits the cache in, an eviction takes out a least
recently used entry without priority, exactly when none of these has the id or
the time stamp that the search starts from. -/
theorem evictLeastUsed_lru_iff (self : EnhancedGraphicsResourceManager) :
    (∀ order, order.Perm self.gpuCache.keys → self.EvictsLeastUsed (self.evictLeastUsed order)) ↔
      ∀ id resource, self.LeastUsed id resource → id ≠ 0 ∧ resource.lastUseTime ≠ UINT64_MAX := by
  constructor
  · intro h id resource hleast
    constructor
    · rintro rfl
      have hmem : (0 : UInt64) ∈ self.gpuCache.keys := AList.mem_of_lookup hleast.cached
      have hevicts := h (0 :: self.gpuCache.keys.erase 0) (List.perm_cons_erase hmem).symm
      rw [evictLeastUsed_of_targetId_eq_zero (hleast.targetId_of_zero _)] at hevicts
      exact hleast.not_evictsLeastUsed_self hevicts
    · intro hlatest
      have hevicts := h self.gpuCache.keys (List.Perm.refl _)
      rw [evictLeastUsed_of_targetId_eq_zero (hleast.targetId_of_latest hlatest _)] at hevicts
      exact hleast.not_evictsLeastUsed_self hevicts
  · intro h order horder
    by_cases hnone : self.targetId order = 0
    · refine .inr ⟨fun id resource hlookup => ?_, evictLeastUsed_of_targetId_eq_zero hnone⟩
      by_contra hfree
      obtain ⟨target, tracker, hleast, hlike⟩ :=
        leastUsed_of_targetId_eq_zero horder hnone hlookup (Bool.eq_false_of_not_eq_true hfree)
      exact hlike.elim (h target tracker hleast).1 (h target tracker hleast).2
    · exact evictsLeastUsed_of_targetId_ne_zero horder hnone

/-- The only resource has id 0, and stays. -/
theorem zero_not_evicted :
    ¬ ∀ order, order.Perm (constructed.preloadResource 0 0x1000 100 10 []).gpuCache.keys →
      (constructed.preloadResource 0 0x1000 100 10 []).EvictsLeastUsed
        ((constructed.preloadResource 0 0x1000 100 10 []).evictLeastUsed order) := by
  intro h
  have hleast : (constructed.preloadResource 0 0x1000 100 10 []).LeastUsed 0
      ⟨0x1000, 10, 100, true, false⟩ := by
    refine ⟨rfl, rfl, fun other tracker hlookup _ => ?_⟩
    have hentry := AList.mem_lookup_iff.mp (Option.mem_def.mpr hlookup)
    have hsame : other = 0 ∧ tracker = ⟨0x1000, 10, 100, true, false⟩ := by
      simpa [constructed, preloadResource, makeRoom, CACHE_SIZE] using hentry
    rw [hsame.2]
    exact UInt64.le_refl _
  exact hleast.not_evictsLeastUsed_self (h [0] (by decide))

end Kernel.Memory.EnhancedGraphicsResourceManager
