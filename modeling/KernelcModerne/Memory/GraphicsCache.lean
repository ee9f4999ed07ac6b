import KernelcModerne.Lib.AListTotal
import KernelcModerne.Lib.Transition

open Transition

namespace Kernel.Memory

structure ResourceTracker where
  resource : UInt64
  lastUseTime : UInt64
  size : UInt64
  isInUse : Bool
  isPriority : Bool

structure EnhancedGraphicsResourceManager where
  gpuCache : AList fun _ : UInt64 => ResourceTracker
  currentCacheSize : UInt64

namespace EnhancedGraphicsResourceManager

/-- 2 GB. -/
def CACHE_SIZE : UInt64 := 2048 * 1024 * 1024

def UINT64_MAX : UInt64 := 0xFFFFFFFFFFFFFFFF

def constructed : EnhancedGraphicsResourceManager where
  gpuCache := ∅
  currentCacheSize := 0

def setCachePriority (self : EnhancedGraphicsResourceManager) (resourceId : UInt64) (isPriority : Bool) :
    EnhancedGraphicsResourceManager :=
  match self.gpuCache.lookup resourceId with
  | some tracker => { self with gpuCache := self.gpuCache.insert resourceId { tracker with isPriority } }
  | none => self

/-- The body of the loop over the cache: `oldest` is `oldestTime` and `targetId`. -/
def older (self : EnhancedGraphicsResourceManager) (oldest : UInt64 × UInt64) (id : UInt64) : UInt64 × UInt64 :=
  match self.gpuCache.lookup id with
  | some resource =>
    if !resource.isPriority && resource.lastUseTime < oldest.1 then (resource.lastUseTime, id) else oldest
  | none => oldest

/-- `order` is the order in which the loop visits the cache. -/
def targetId (self : EnhancedGraphicsResourceManager) (order : List UInt64) : UInt64 :=
  (order.foldl self.older (UINT64_MAX, 0)).2

def evictLeastUsed (self : EnhancedGraphicsResourceManager) (order : List UInt64) :
    EnhancedGraphicsResourceManager :=
  let targetId := self.targetId order
  if targetId ≠ 0 then
    match self.gpuCache.lookup targetId with
    | some resource =>
      { self with
        currentCacheSize := self.currentCacheSize - resource.size
        gpuCache := self.gpuCache.erase targetId }
    | none => self
  else self

/-- The first part of `preloadResource`. -/
def makeRoom (self : EnhancedGraphicsResourceManager) (size : UInt64) (order : List UInt64) :
    EnhancedGraphicsResourceManager :=
  if self.currentCacheSize + size > CACHE_SIZE then self.evictLeastUsed order else self

/-- `now` is what the clock answers. -/
def preloadResource (self : EnhancedGraphicsResourceManager) (resourceId data size now : UInt64)
    (order : List UInt64) : EnhancedGraphicsResourceManager :=
  let self := self.makeRoom size order
  let tracker : ResourceTracker :=
    { resource := data, lastUseTime := now, size, isInUse := true, isPriority := false }
  { self with
    gpuCache := self.gpuCache.insert resourceId tracker
    currentCacheSize := self.currentCacheSize + size }

inductive Op where
  | preloadResource (resourceId data size now : UInt64) (order : List UInt64)
  | setCachePriority (resourceId : UInt64) (isPriority : Bool)

/-- The id that the operation puts into the cache. -/
def Op.preloaded : Op → Option UInt64
  | .preloadResource resourceId _ _ _ _ => some resourceId
  | .setCachePriority _ _ => none

/-- The loop visits every entry of the cache once. -/
def step (self : EnhancedGraphicsResourceManager) : Op → Option EnhancedGraphicsResourceManager
  | .preloadResource resourceId data size now order =>
    if order.Perm self.gpuCache.keys then some (self.preloadResource resourceId data size now order) else none
  | .setCachePriority resourceId isPriority => some (self.setCachePriority resourceId isPriority)

def weight (_ : UInt64) (resource : ResourceTracker) : Nat := resource.size.toNat

/-- The sum of the sizes of the entries. -/
def cachedSize (self : EnhancedGraphicsResourceManager) : Nat := self.gpuCache.total weight

/-- `currentCacheSize` is the sum of the sizes of the entries. -/
def Accounted (self : EnhancedGraphicsResourceManager) : Prop := self.currentCacheSize.toNat = self.cachedSize

instance (self : EnhancedGraphicsResourceManager) : Decidable self.Accounted :=
  inferInstanceAs (Decidable (self.currentCacheSize.toNat = self.cachedSize))

/-- The entries take no more than the cache may. -/
def Within (self : EnhancedGraphicsResourceManager) : Prop := self.cachedSize ≤ CACHE_SIZE.toNat

instance (self : EnhancedGraphicsResourceManager) : Decidable self.Within :=
  inferInstanceAs (Decidable (self.cachedSize ≤ CACHE_SIZE.toNat))

/-- The size of the entry that an eviction takes out. -/
def evictedSize (self : EnhancedGraphicsResourceManager) (order : List UInt64) : Nat :=
  if self.targetId order ≠ 0 then
    ((self.gpuCache.lookup (self.targetId order)).map fun resource => resource.size.toNat).getD 0
  else 0

/-- A preload of `size` evicts the entry of `id`. -/
def Evicts (self : EnhancedGraphicsResourceManager) (size : UInt64) (order : List UInt64) (id : UInt64) :
    Prop :=
  self.currentCacheSize + size > CACHE_SIZE ∧ id ≠ 0 ∧ self.targetId order = id

instance (self : EnhancedGraphicsResourceManager) (size : UInt64) (order : List UInt64) (id : UInt64) :
    Decidable (self.Evicts size order id) :=
  inferInstanceAs (Decidable (_ ∧ _ ∧ _))

/-- An entry that is replaced is evicted first or has no size, and what is left
takes the new one below 2 ^ 64. -/
def AddsUp (self : EnhancedGraphicsResourceManager) : Op → Prop
  | .preloadResource resourceId _ size _ order =>
    (∀ replaced, self.gpuCache.lookup resourceId = some replaced →
      self.Evicts size order resourceId ∨ replaced.size = 0) ∧
      self.cachedSize + size.toNat <
        2 ^ 64 + (if self.currentCacheSize + size > CACHE_SIZE then self.evictedSize order else 0)
  | .setCachePriority _ _ => True

/-- The resource fits, if need be in the place of the entry that is evicted. -/
def Fits (self : EnhancedGraphicsResourceManager) : Op → Prop
  | .preloadResource _ _ size _ order =>
    self.cachedSize + size.toNat ≤ CACHE_SIZE.toNat + self.evictedSize order
  | .setCachePriority _ _ => True

variable {self after : EnhancedGraphicsResourceManager}

/-- What the loop has found after the entries `visited`: the oldest of those
without priority, or that all of them are as new as can be. -/
structure Oldest (manager : EnhancedGraphicsResourceManager) (visited : List UInt64)
    (oldest : UInt64 × UInt64) : Prop where
  found : oldest = (UINT64_MAX, 0) ∨ ∃ resource, manager.gpuCache.lookup oldest.2 = some resource ∧
    resource.isPriority = false ∧ resource.lastUseTime = oldest.1
  least : ∀ id ∈ visited, ∀ resource, manager.gpuCache.lookup id = some resource →
    resource.isPriority = false → oldest.1 ≤ resource.lastUseTime

/-- One more entry, which the older of the two findings is as old as. -/
theorem Oldest.extend {visited : List UInt64} {oldest next : UInt64 × UInt64} (h : self.Oldest visited oldest)
    {id : UInt64}
    (hfound : next = (UINT64_MAX, 0) ∨ ∃ resource, self.gpuCache.lookup next.2 = some resource ∧
      resource.isPriority = false ∧ resource.lastUseTime = next.1)
    (hle : next.1 ≤ oldest.1)
    (hlast : ∀ resource, self.gpuCache.lookup id = some resource → resource.isPriority = false →
      next.1 ≤ resource.lastUseTime) : self.Oldest (visited ++ [id]) next := by
  refine ⟨hfound, fun other hother resource hresource hpriority => ?_⟩
  cases List.mem_append.mp hother with
  | inl hvisited => exact UInt64.le_trans hle (h.least other hvisited resource hresource hpriority)
  | inr hsame =>
    rw [List.mem_singleton.mp hsame] at hresource
    exact hlast resource hresource hpriority

theorem Oldest.older {visited : List UInt64} {oldest : UInt64 × UInt64} (h : self.Oldest visited oldest)
    (id : UInt64) : self.Oldest (visited ++ [id]) (self.older oldest id) := by
  unfold EnhancedGraphicsResourceManager.older
  cases hlookup : self.gpuCache.lookup id with
  | none => exact h.extend h.found (UInt64.le_refl _) fun resource hresource => by simp [hlookup] at hresource
  | some tracker =>
    have htracker : ∀ resource, self.gpuCache.lookup id = some resource → resource = tracker :=
      fun resource hresource => Option.some.inj (hresource.symm.trans hlookup)
    dsimp only
    split
    · rename_i holder
      simp only [Bool.and_eq_true, Bool.not_eq_true', decide_eq_true_eq] at holder
      refine h.extend (.inr ⟨tracker, hlookup, holder.1, rfl⟩) (UInt64.le_of_lt holder.2) fun resource hresource _ => ?_
      rw [htracker resource hresource]
      exact UInt64.le_refl _
    · rename_i hnewer
      simp only [Bool.and_eq_true, Bool.not_eq_true', decide_eq_true_eq, not_and, UInt64.not_lt] at hnewer
      refine h.extend h.found (UInt64.le_refl _) fun resource hresource hpriority => ?_
      rw [htracker resource hresource] at hpriority ⊢
      exact hnewer hpriority

theorem Oldest.foldl {visited : List UInt64} {oldest : UInt64 × UInt64} (h : self.Oldest visited oldest)
    (order : List UInt64) : self.Oldest (visited ++ order) (order.foldl self.older oldest) := by
  induction order generalizing visited oldest with
  | nil => exact (List.append_nil visited).symm ▸ h
  | cons id order ih =>
    have hnext := ih (h.older id)
    rwa [List.append_assoc, List.singleton_append] at hnext

/-- The target is the least recently used entry among those without priority. -/
theorem targetId_spec {order : List UInt64} (horder : order.Perm self.gpuCache.keys)
    (hne : self.targetId order ≠ 0) :
    ∃ target, self.gpuCache.lookup (self.targetId order) = some target ∧ target.isPriority = false ∧
      ∀ id resource, self.gpuCache.lookup id = some resource → resource.isPriority = false →
        target.lastUseTime ≤ resource.lastUseTime := by
  have hstart : self.Oldest [] (UINT64_MAX, 0) := ⟨.inl rfl, fun _ h => absurd h List.not_mem_nil⟩
  have holdest := hstart.foldl order
  cases holdest.found with
  | inl hnone => exact absurd (congrArg Prod.snd hnone) hne
  | inr hsome =>
    obtain ⟨target, hlookup, hpriority, htime⟩ := hsome
    refine ⟨target, hlookup, hpriority, fun id resource hresource hfree => htime ▸ ?_⟩
    have hkey : id ∈ self.gpuCache := AList.mem_of_lookup hresource
    exact holdest.least id (horder.mem_iff.mpr hkey) resource hresource hfree

theorem constructed_accounted : constructed.Accounted := rfl

theorem cachedSize_setCachePriority (self : EnhancedGraphicsResourceManager) (resourceId : UInt64)
    (isPriority : Bool) : (self.setCachePriority resourceId isPriority).cachedSize = self.cachedSize := by
  unfold setCachePriority cachedSize
  split
  · rename_i tracker hlookup
    exact Nat.add_right_cancel (AList.total_insert_of_lookup weight hlookup { tracker with isPriority })
  · rfl

theorem currentCacheSize_setCachePriority (self : EnhancedGraphicsResourceManager) (resourceId : UInt64)
    (isPriority : Bool) :
    (self.setCachePriority resourceId isPriority).currentCacheSize = self.currentCacheSize := by
  unfold setCachePriority
  split
  · rfl
  · rfl

/-- An eviction takes out the entry of the target, or nothing. -/
theorem evictLeastUsed_cases (self : EnhancedGraphicsResourceManager) (order : List UInt64) :
    (∃ resource, self.targetId order ≠ 0 ∧ self.gpuCache.lookup (self.targetId order) = some resource ∧
      self.evictedSize order = resource.size.toNat ∧
      self.evictLeastUsed order =
        { gpuCache := self.gpuCache.erase (self.targetId order)
          currentCacheSize := self.currentCacheSize - resource.size }) ∨
      (self.targetId order = 0 ∨ self.gpuCache.lookup (self.targetId order) = none) ∧
        self.evictedSize order = 0 ∧ self.evictLeastUsed order = self := by
  unfold evictedSize evictLeastUsed
  by_cases htarget : self.targetId order ≠ 0
  · cases hlookup : self.gpuCache.lookup (self.targetId order) with
    | some resource => exact .inl ⟨resource, htarget, rfl, by simp [htarget], by simp [htarget, hlookup]⟩
    | none => exact .inr ⟨.inr rfl, by simp, by simp [hlookup]⟩
  · exact .inr ⟨.inl (not_not.mp htarget), if_neg htarget, if_neg htarget⟩

theorem cachedSize_evictLeastUsed (self : EnhancedGraphicsResourceManager) (order : List UInt64) :
    (self.evictLeastUsed order).cachedSize + self.evictedSize order = self.cachedSize := by
  cases self.evictLeastUsed_cases order with
  | inl h =>
    obtain ⟨resource, _, hlookup, hsize, hevict⟩ := h
    rw [hevict, hsize, Nat.add_comm]
    exact (AList.total_erase_of_lookup weight hlookup).symm
  | inr h => rw [h.2.1, h.2.2, Nat.add_zero]

theorem cachedSize_makeRoom (self : EnhancedGraphicsResourceManager) (size : UInt64) (order : List UInt64) :
    (self.makeRoom size order).cachedSize +
      (if self.currentCacheSize + size > CACHE_SIZE then self.evictedSize order else 0) = self.cachedSize := by
  unfold makeRoom
  split
  · exact self.cachedSize_evictLeastUsed order
  · rfl

theorem lookup_makeRoom (self : EnhancedGraphicsResourceManager) (size : UInt64) (order : List UInt64)
    (id : UInt64) : (self.makeRoom size order).gpuCache.lookup id =
      if self.Evicts size order id then none else self.gpuCache.lookup id := by
  by_cases hevicts : self.Evicts size order id
  · rw [if_pos hevicts]
    obtain ⟨hover, hne, rfl⟩ := hevicts
    rw [makeRoom, if_pos hover]
    cases self.evictLeastUsed_cases order with
    | inl hcase =>
      obtain ⟨resource, _, _, _, hevict⟩ := hcase
      rw [hevict]
      exact AList.lookup_erase _ _
    | inr hcase =>
      rw [hcase.2.2]
      exact hcase.1.resolve_left hne
  · rw [if_neg hevicts, makeRoom]
    by_cases hover : self.currentCacheSize + size > CACHE_SIZE
    · rw [if_pos hover]
      cases self.evictLeastUsed_cases order with
      | inl hcase =>
        obtain ⟨resource, hne, _, _, hevict⟩ := hcase
        have hother : id ≠ self.targetId order := by
          rintro rfl
          exact hevicts ⟨hover, hne, rfl⟩
        rw [hevict]
        exact AList.lookup_erase_ne hother
      | inr hcase => rw [hcase.2.2]
    · rw [if_neg hover]

theorem Accounted.evictLeastUsed (h : self.Accounted) (order : List UInt64) :
    (self.evictLeastUsed order).Accounted := by
  have hcached := self.cachedSize_evictLeastUsed order
  cases self.evictLeastUsed_cases order with
  | inl hcase =>
    obtain ⟨resource, _, hlookup, hsize, hevict⟩ := hcase
    have hle : resource.size ≤ self.currentCacheSize := by
      rw [UInt64.le_iff_toNat_le, h]
      omega
    have hsub := UInt64.toNat_sub_of_le _ _ hle
    rw [h, ← hcached, hsize, Nat.add_sub_cancel] at hsub
    rw [Accounted, ← hsub, hevict]
  | inr hcase => rwa [hcase.2.2]

theorem Accounted.makeRoom (h : self.Accounted) (size : UInt64) (order : List UInt64) :
    (self.makeRoom size order).Accounted := by
  unfold EnhancedGraphicsResourceManager.makeRoom
  split
  · exact h.evictLeastUsed order
  · exact h

theorem Accounted.setCachePriority (h : self.Accounted) (resourceId : UInt64) (isPriority : Bool) :
    (self.setCachePriority resourceId isPriority).Accounted := by
  rw [Accounted, cachedSize_setCachePriority, currentCacheSize_setCachePriority]
  exact h

/-- What an insertion makes of the sum: the size of a replaced entry is not
taken off `currentCacheSize`. -/
theorem Accounted.insert_iff (h : self.Accounted) (resourceId : UInt64) (tracker : ResourceTracker) :
    Accounted { gpuCache := self.gpuCache.insert resourceId tracker
                currentCacheSize := self.currentCacheSize + tracker.size } ↔
      (∀ replaced, self.gpuCache.lookup resourceId = some replaced → replaced.size = 0) ∧
        self.cachedSize + tracker.size.toNat < 2 ^ 64 := by
  have hcached : self.cachedSize < 2 ^ 64 := h ▸ self.currentCacheSize.toNat_lt
  have hsize := tracker.size.toNat_lt
  rw [Accounted, UInt64.toNat_add, h]
  cases hlookup : self.gpuCache.lookup resourceId with
  | none =>
    have hinsert : cachedSize ⟨self.gpuCache.insert resourceId tracker, self.currentCacheSize + tracker.size⟩ =
        self.cachedSize + tracker.size.toNat := AList.total_insert_of_lookup_none weight hlookup tracker
    rw [hinsert]
    simp only [reduceCtorEq, false_implies, implies_true, true_and]
    omega
  | some replaced =>
    have hinsert : cachedSize ⟨self.gpuCache.insert resourceId tracker, self.currentCacheSize + tracker.size⟩ +
        replaced.size.toNat = self.cachedSize + tracker.size.toNat :=
      AList.total_insert_of_lookup weight hlookup tracker
    have hreplaced := replaced.size.toNat_lt
    simp only [Option.some.injEq, forall_eq', ← UInt64.toNat_inj, UInt64.toNat_zero]
    omega

theorem Accounted.preloadResource_iff (h : self.Accounted) (resourceId data size now : UInt64)
    (order : List UInt64) : (self.preloadResource resourceId data size now order).Accounted ↔
      self.AddsUp (.preloadResource resourceId data size now order) := by
  refine ((h.makeRoom size order).insert_iff resourceId _).trans (and_congr ?_ ?_)
  · simp only [lookup_makeRoom]
    by_cases hevicts : self.Evicts size order resourceId
    · simp [hevicts]
    · simp [hevicts]
  · have hcached := self.cachedSize_makeRoom size order
    simp only
    omega

theorem step_accounted_iff (h : self.Accounted) {op : Op} (hstep : self.step op = some after) :
    after.Accounted ↔ self.AddsUp op := by
  cases op with
  | preloadResource resourceId data size now order =>
    simp only [step] at hstep
    split at hstep
    · obtain rfl := Option.some.inj hstep
      exact h.preloadResource_iff resourceId data size now order
    · cases hstep
  | setCachePriority resourceId isPriority =>
    obtain rfl := Option.some.inj hstep
    exact iff_of_true (h.setCachePriority resourceId isPriority) trivial

/-- In every run `currentCacheSize` is the sum of the sizes of the entries
exactly when no preload replaces an entry of a size or takes the sum to 2 ^ 64. -/
theorem always_accounted_iff (ops : List Op) :
    Always step Accounted constructed ops ↔ Guarded step AddsUp constructed ops :=
  always_iff_guarded_of_step (fun _ _ _ h hstep => step_accounted_iff h hstep) ops constructed_accounted

/-- A resource that is preloaded again. -/
theorem preloaded_twice :
    ¬ Always step Accounted constructed
      [.preloadResource 1 0x1000 100 10 [], .preloadResource 1 0x1000 100 20 [1]] := by
  rintro ⟨_, h⟩
  obtain ⟨_, h⟩ := h _ rfl
  obtain ⟨haccounted, _⟩ := h _ rfl
  exact absurd haccounted (by decide)

theorem mem_of_mem_makeRoom {resourceId size : UInt64} {order : List UInt64}
    (h : resourceId ∈ (self.makeRoom size order).gpuCache) : resourceId ∈ self.gpuCache := by
  rw [← AList.lookup_isSome, lookup_makeRoom] at h
  split at h
  · cases h
  · exact AList.lookup_isSome.mp h

theorem mem_preloadResource {resourceId data size now id : UInt64} {order : List UInt64}
    (h : id ∈ (self.preloadResource resourceId data size now order).gpuCache) :
    id = resourceId ∨ id ∈ self.gpuCache :=
  ((AList.mem_insert _).mp h).imp_right mem_of_mem_makeRoom

theorem mem_setCachePriority {resourceId id : UInt64} {isPriority : Bool}
    (h : id ∈ (self.setCachePriority resourceId isPriority).gpuCache) : id ∈ self.gpuCache := by
  unfold setCachePriority at h
  split at h
  · rename_i tracker hlookup
    cases (AList.mem_insert _).mp h with
    | inl heq => exact heq ▸ AList.mem_of_lookup hlookup
    | inr hmem => exact hmem
  · exact h

/-- The sum after the preload of a resource that is not cached. -/
theorem cachedSize_preloadResource {resourceId : UInt64} (hnew : resourceId ∉ self.gpuCache)
    (data size now : UInt64) (order : List UInt64) :
    (self.preloadResource resourceId data size now order).cachedSize =
      (self.makeRoom size order).cachedSize + size.toNat :=
  AList.total_insert_of_lookup_none weight
    (AList.lookup_eq_none.mpr fun hmem => hnew (mem_of_mem_makeRoom hmem)) _

/-- The entries fit after a preload exactly when what is evicted makes the room. -/
theorem Within.preloadResource_iff (h : self.Within) (haccounted : self.Accounted) {resourceId : UInt64}
    (hnew : resourceId ∉ self.gpuCache) (data size now : UInt64) (order : List UInt64) :
    (self.preloadResource resourceId data size now order).Within ↔
      self.Fits (.preloadResource resourceId data size now order) := by
  have hsum := UInt64.toNat_add self.currentCacheSize size
  have hevict := self.cachedSize_evictLeastUsed order
  have hcapacity : CACHE_SIZE.toNat = 2 ^ 31 := rfl
  have hsize := size.toNat_lt
  rw [Within, hcapacity] at h
  rw [haccounted] at hsum
  rw [Within, cachedSize_preloadResource hnew, Fits, hcapacity, makeRoom]
  by_cases hover : self.currentCacheSize + size > CACHE_SIZE
  · rw [if_pos hover]
    omega
  · have hle : (self.currentCacheSize + size).toNat ≤ 2 ^ 31 := not_lt.mp hover
    -- a sum that wraps is far beyond what an eviction can make room for
    rw [if_neg hover]
    omega

/-- The cache is accounted for and holds none of the resources to come. -/
structure Ready (manager : EnhancedGraphicsResourceManager) (ops : List Op) : Prop where
  accounted : manager.Accounted
  within : manager.Within
  fresh : ∀ id ∈ ops.filterMap Op.preloaded, id ∉ manager.gpuCache
  distinct : (ops.filterMap Op.preloaded).Nodup

theorem Ready.within_iff {op : Op} {rest : List Op} (h : self.Ready (op :: rest))
    (hstep : self.step op = some after) : after.Within ↔ self.Fits op := by
  cases op with
  | preloadResource resourceId data size now order =>
    simp only [step] at hstep
    split at hstep
    · obtain rfl := Option.some.inj hstep
      exact h.within.preloadResource_iff h.accounted (h.fresh resourceId List.mem_cons_self) data size now order
    · cases hstep
  | setCachePriority resourceId isPriority =>
    obtain rfl := Option.some.inj hstep
    refine iff_of_true ?_ trivial
    rw [Within, cachedSize_setCachePriority]
    exact h.within

theorem Ready.step {op : Op} {rest : List Op} (h : self.Ready (op :: rest)) (hstep : self.step op = some after)
    (hwithin : after.Within) : after.Ready rest := by
  cases op with
  | preloadResource resourceId data size now order =>
    have hdistinct := List.nodup_cons.mp h.distinct
    have hnew := h.fresh resourceId List.mem_cons_self
    simp only [EnhancedGraphicsResourceManager.step] at hstep
    split at hstep
    · obtain rfl := Option.some.inj hstep
      refine ⟨(h.accounted.preloadResource_iff resourceId data size now order).mpr ⟨?_, ?_⟩, hwithin, ?_,
        hdistinct.2⟩
      · intro replaced hlookup
        rw [AList.lookup_eq_none.mpr hnew] at hlookup
        cases hlookup
      · have hcapacity : CACHE_SIZE.toNat = 2 ^ 31 := rfl
        have hcached := self.cachedSize_makeRoom size order
        rw [Within, cachedSize_preloadResource hnew] at hwithin
        omega
      · intro id hid hmem
        cases mem_preloadResource hmem with
        | inl heq => exact hdistinct.1 (heq ▸ hid)
        | inr hmem => exact h.fresh id (List.mem_cons_of_mem _ hid) hmem
    · cases hstep
  | setCachePriority resourceId isPriority =>
    obtain rfl := Option.some.inj hstep
    exact ⟨h.accounted.setCachePriority resourceId isPriority, hwithin,
      fun id hid hmem => h.fresh id hid (mem_setCachePriority hmem), h.distinct⟩

/-- In every run that preloads distinct resources the entries stay within the
cache exactly when each of them fits in the place of the entry that is evicted. -/
theorem always_within_iff (ops : List Op) (hdistinct : (ops.filterMap Op.preloaded).Nodup) :
    Always step Within constructed ops ↔ Guarded step Fits constructed ops := by
  have hready : constructed.Ready ops :=
    ⟨constructed_accounted, Nat.zero_le _, fun _ _ => AList.notMem_empty _, hdistinct⟩
  have halong : Along step (fun _ _ after => after.Within) constructed ops ↔
      Guarded step Fits constructed ops :=
    along_iff_along_rest Ready (fun _ _ _ _ h hstep => h.within_iff hstep)
      (fun _ _ _ _ h hstep hwithin => h.step hstep hwithin) ops hready
  exact ⟨fun h => halong.mp h.2, fun h => ⟨hready.within, halong.mpr h⟩⟩

/-- Three resources of 1 GB: the third takes the place of the first. -/
theorem always_within_three : Always step Within constructed
    [.preloadResource 1 0x1000 0x40000000 10 [], .preloadResource 2 0x2000 0x40000000 20 [1],
      .preloadResource 3 0x3000 0x40000000 30 [2, 1]] := by
  refine (always_within_iff _ (by decide)).mpr ?_
  intro _ hfirst
  obtain rfl := Option.some.inj hfirst
  refine ⟨Nat.le_of_ble_eq_true rfl, fun _ hsecond => ?_⟩
  obtain rfl := Option.some.inj hsecond
  refine ⟨Nat.le_of_ble_eq_true rfl, fun _ hthird => ?_⟩
  obtain rfl := Option.some.inj hthird
  exact ⟨Nat.le_of_ble_eq_true rfl, trivial⟩

/-- A resource of 2 GB takes the place of one of a byte. -/
theorem preloaded_beyond : ¬ Always step Within constructed
    [.preloadResource 1 0x1000 1 10 [], .preloadResource 2 0x2000 0x7FFFFFFF 20 [1],
      .preloadResource 3 0x3000 0x80000000 30 [2, 1]] := by
  rintro ⟨_, h⟩
  obtain ⟨_, h⟩ := h _ rfl
  obtain ⟨_, h⟩ := h _ rfl
  obtain ⟨hwithin, _⟩ := h _ rfl
  exact absurd hwithin (by decide)

end EnhancedGraphicsResourceManager

end Kernel.Memory
