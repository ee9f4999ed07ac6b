import KernelcModerne.Memory.GraphicsCache

namespace Kernel.Memory

namespace EnhancedGraphicsResourceManager

/-- The type of a resource with its member of the union; 0 for a null pointer. -/
inductive ResourceInfo where
  | TEXTURE (texture srv : UInt64)
  | VERTEX_BUFFER (buffer : UInt64)
  | INDEX_BUFFER (buffer : UInt64)
  | SHADER (shader : UInt64)
  | RENDER_TARGET (rtv texture : UInt64)
  | OTHER (genericResource : UInt64)
  deriving DecidableEq

namespace ResourceInfo

/-- The main pointer of a resource, the one that `updateResourceLocation` sets. -/
def location : ResourceInfo → UInt64
  | TEXTURE texture _ => texture
  | VERTEX_BUFFER buffer => buffer
  | INDEX_BUFFER buffer => buffer
  | SHADER shader => shader
  | RENDER_TARGET _ texture => texture
  | OTHER genericResource => genericResource

/-- The switch of `updateResourceLocation`. -/
def setLocation (newLocation : UInt64) : ResourceInfo → ResourceInfo
  | TEXTURE _ srv => TEXTURE newLocation srv
  | VERTEX_BUFFER _ => VERTEX_BUFFER newLocation
  | INDEX_BUFFER _ => INDEX_BUFFER newLocation
  | SHADER _ => SHADER newLocation
  | RENDER_TARGET rtv _ => RENDER_TARGET rtv newLocation
  | OTHER _ => OTHER newLocation

/-- The pointers in the order in which `releaseResource` goes through them. -/
def pointers : ResourceInfo → List UInt64
  | TEXTURE texture srv => [srv, texture]
  | VERTEX_BUFFER buffer => [buffer]
  | INDEX_BUFFER buffer => [buffer]
  | SHADER shader => [shader]
  | RENDER_TARGET rtv texture => [rtv, texture]
  | OTHER genericResource => [genericResource]

theorem setLocation_eq_self_iff {newLocation : UInt64} {info : ResourceInfo} :
    info.setLocation newLocation = info ↔ info.location = newLocation := by
  cases info <;> simp [setLocation, location, eq_comm]

end ResourceInfo

end EnhancedGraphicsResourceManager

open EnhancedGraphicsResourceManager

/-- The manager with its list of resources and what it knows of them. The calls
of `Release()` are recorded in order. -/
structure GraphicsRecords extends EnhancedGraphicsResourceManager where
  resources : List ResourceTracker
  resourceInfoMap : AList fun _ : UInt64 => ResourceInfo
  releases : List UInt64

namespace GraphicsRecords

/-- 5 seconds. -/
def RESOURCE_TIMEOUT : UInt64 := 5000

def releaseResource (manager : GraphicsRecords) (resource : UInt64) : GraphicsRecords :=
  match manager.resourceInfoMap.lookup resource with
  | none => manager
  | some info =>
    { manager with
      releases := manager.releases ++ info.pointers.filter (· ≠ 0)
      resourceInfoMap := manager.resourceInfoMap.erase resource }

/-- The test of `collectGarbage`. -/
def timedOut (currentTime : UInt64) (tracker : ResourceTracker) : Bool :=
  !tracker.isInUse && !tracker.isPriority && currentTime - tracker.lastUseTime > RESOURCE_TIMEOUT

/-- What `collectGarbage` does about a resource before it is erased. -/
def release (manager : GraphicsRecords) (tracker : ResourceTracker) : GraphicsRecords :=
  let released := manager.releaseResource tracker.resource
  { released with currentCacheSize := released.currentCacheSize - tracker.size }

/-- The loop of `collectGarbage` from the position `it` on. -/
def collectFrom (currentTime : UInt64) (manager : GraphicsRecords) (it : Nat) : GraphicsRecords :=
  if h : it < manager.resources.length then
    if timedOut currentTime manager.resources[it] then
      collectFrom currentTime
        { manager.release manager.resources[it] with resources := manager.resources.eraseIdx it } it
    else collectFrom currentTime manager (it + 1)
  else manager
termination_by manager.resources.length - it
decreasing_by
  · simp only [List.length_eraseIdx_of_lt h]
    omega
  · omega

/-- `currentTime` is what the clock answers. -/
def collectGarbage (manager : GraphicsRecords) (currentTime : UInt64) : GraphicsRecords :=
  manager.collectFrom currentTime 0

/-- `updateResourceLocation`, with no result where it erases by an iterator that
is invalid: `rehashes` says whether an insertion into the map rehashes it. -/
def updateResourceLocation (manager : GraphicsRecords) (oldLocation newLocation : UInt64)
    (rehashes : Bool) : Option GraphicsRecords :=
  let resources := manager.resources.map fun tracker =>
    if tracker.resource = oldLocation then { tracker with resource := newLocation } else tracker
  match manager.resourceInfoMap.lookup oldLocation with
  | some info =>
    let resourceInfoMap := manager.resourceInfoMap.insert newLocation info
    -- the switch is on a copy of the record, which the map does not see
    let _info := info.setLocation newLocation
    if rehashes ∧ newLocation ∉ manager.resourceInfoMap then none
    else some { manager with resourceInfoMap := resourceInfoMap.erase oldLocation, resources }
  | none => some { manager with resources }

/-- Everything that was known of `oldLocation` is known of `newLocation`, which
is the main pointer of the resource. -/
structure Relocated (manager after : GraphicsRecords) (oldLocation newLocation : UInt64) : Prop where
  gone : after.resourceInfoMap.lookup oldLocation = none
  moved : after.resourceInfoMap.lookup newLocation =
    (manager.resourceInfoMap.lookup oldLocation).map (ResourceInfo.setLocation newLocation)
  others : ∀ location, location ≠ oldLocation → location ≠ newLocation →
    after.resourceInfoMap.lookup location = manager.resourceInfoMap.lookup location
  trackers : after.resources = manager.resources.map fun tracker =>
    if tracker.resource = oldLocation then { tracker with resource := newLocation } else tracker

/-- The resource is not in use, without priority and was used longer ago than
the timeout. -/
def Idle (currentTime : UInt64) (tracker : ResourceTracker) : Prop :=
  tracker.isInUse = false ∧ tracker.isPriority = false ∧
    tracker.lastUseTime.toNat + RESOURCE_TIMEOUT.toNat < currentTime.toNat

instance (currentTime : UInt64) (tracker : ResourceTracker) : Decidable (Idle currentTime tracker) :=
  inferInstanceAs (Decidable (_ ∧ _ ∧ _))

/-- The resources that satisfy `p` are released in order and removed, the others
stay in order. -/
def collected (p : ResourceTracker → Bool) (manager : GraphicsRecords) : GraphicsRecords :=
  { (manager.resources.filter p).foldl release manager with
    resources := manager.resources.filter fun tracker => !p tracker }

/-- The resource was not used after `currentTime`, or by so much that the
difference wraps to less than the timeout. -/
def NotAhead (currentTime : UInt64) (tracker : ResourceTracker) : Prop :=
  tracker.isInUse = false → tracker.isPriority = false → tracker.lastUseTime ≤ currentTime ∨
    currentTime.toNat + 2 ^ 64 ≤ tracker.lastUseTime.toNat + RESOURCE_TIMEOUT.toNat

variable {manager : GraphicsRecords}

/-- A record is moved as it should be exactly when its main pointer is the new
location before, and the iterator stays valid. -/
theorem updateResourceLocation_relocates_iff {oldLocation newLocation : UInt64} {info : ResourceInfo}
    (hold : manager.resourceInfoMap.lookup oldLocation = some info)
    (hnew : newLocation ∉ manager.resourceInfoMap) (rehashes : Bool) :
    (∃ after, manager.updateResourceLocation oldLocation newLocation rehashes = some after ∧
      manager.Relocated after oldLocation newLocation) ↔
      rehashes = false ∧ info.location = newLocation := by
  have hne : newLocation ≠ oldLocation := by
    rintro rfl
    exact hnew (AList.mem_of_lookup hold)
  cases rehashes with
  | true => simp [updateResourceLocation, hold, hnew]
  | false =>
    simp only [updateResourceLocation, hold, Bool.false_eq_true, false_and, if_false, Option.some.injEq,
      exists_eq_left', true_and]
    constructor
    · intro h
      have hmoved := h.moved
      rw [AList.lookup_erase_ne hne, AList.lookup_insert, hold, Option.map_some, Option.some.injEq] at hmoved
      exact ResourceInfo.setLocation_eq_self_iff.mp hmoved.symm
    · intro hlocation
      refine ⟨AList.lookup_erase _ _, ?_, fun location hold' hnew' => ?_, rfl⟩
      · rw [AList.lookup_erase_ne hne, AList.lookup_insert, hold, Option.map_some,
          ResourceInfo.setLocation_eq_self_iff.mpr hlocation]
      · rw [AList.lookup_erase_ne hold', AList.lookup_insert_ne hnew']

/-- A texture is recorded at the place it is moved to as a texture at its old place. -/
theorem moved_without_pointer :
    let manager : GraphicsRecords :=
      { gpuCache := ∅, currentCacheSize := 64, resources := [⟨0x1000, 10, 64, false, false⟩]
        resourceInfoMap := AList.singleton 0x1000 (.TEXTURE 0x1000 0), releases := [] }
    ¬ ∃ after, manager.updateResourceLocation 0x1000 0x2000 false = some after ∧
      manager.Relocated after 0x1000 0x2000 := by
  rintro manager ⟨after, hupdate, h⟩
  obtain rfl := Option.some.inj hupdate
  have hmoved := h.moved
  revert hmoved
  decide

/-- A resource whose main pointer is at the new place already. -/
theorem updateResourceLocation_relocates_placed :
    let manager : GraphicsRecords :=
      { gpuCache := ∅, currentCacheSize := 64, resources := [⟨0x1000, 10, 64, false, false⟩]
        resourceInfoMap := AList.singleton 0x1000 (.TEXTURE 0x2000 0), releases := [] }
    ∃ after, manager.updateResourceLocation 0x1000 0x2000 false = some after ∧
      manager.Relocated after 0x1000 0x2000 := by
  intro manager
  have hold : manager.resourceInfoMap.lookup 0x1000 = some (.TEXTURE 0x2000 0) := rfl
  exact (updateResourceLocation_relocates_iff hold (by decide) false).mpr ⟨rfl, rfl⟩

/-- What is released does not depend on the list that it is released from. -/
theorem release_withResources (manager : GraphicsRecords) (resources : List ResourceTracker)
    (tracker : ResourceTracker) :
    release { manager with resources } tracker = { manager.release tracker with resources } := by
  simp only [release, releaseResource]
  split
  · rfl
  · rfl

theorem foldl_release_withResources (manager : GraphicsRecords) (resources trackers : List ResourceTracker) :
    trackers.foldl release { manager with resources } = { trackers.foldl release manager with resources } := by
  induction trackers generalizing manager with
  | nil => rfl
  | cons tracker trackers ih => rw [List.foldl_cons, List.foldl_cons, release_withResources, ih]

/-- The loop keeps what it has passed and goes through the rest. -/
theorem collectFrom_eq (currentTime : UInt64) {kept rest : List ResourceTracker}
    (h : manager.resources = kept ++ rest) :
    manager.collectFrom currentTime kept.length =
      { (rest.filter (timedOut currentTime)).foldl release manager with
        resources := kept ++ rest.filter fun tracker => !timedOut currentTime tracker } := by
  induction rest generalizing manager kept with
  | nil =>
    rw [List.append_nil] at h
    unfold collectFrom
    simp [← h]
  | cons tracker rest ih =>
    have hit : kept.length < manager.resources.length := by simp [h]
    have htracker : manager.resources[kept.length] = tracker := by simp [h]
    rw [collectFrom, dif_pos hit, htracker]
    cases htime : timedOut currentTime tracker with
    | true =>
      have herase : manager.resources.eraseIdx kept.length = kept ++ rest := by
        rw [h, List.eraseIdx_append_of_length_le (Nat.le_refl _), Nat.sub_self, List.eraseIdx_cons_zero]
      rw [if_pos rfl, herase, ih rfl, foldl_release_withResources, List.filter_cons_of_pos htime,
        List.foldl_cons, List.filter_cons_of_neg (by simp [htime])]
    | false =>
      have hnext : manager.resources = (kept ++ [tracker]) ++ rest := by
        rw [h, List.append_assoc, List.singleton_append]
      have hrest := ih hnext
      rw [List.length_append, List.length_singleton] at hrest
      rw [if_neg (by decide), hrest, List.filter_cons_of_neg (by simp [htime]),
        List.filter_cons_of_pos (by simp [htime]), List.append_assoc, List.singleton_append]

/-- Erasing at the position of the loop amounts to a filter. -/
theorem collectGarbage_eq (manager : GraphicsRecords) (currentTime : UInt64) :
    manager.collectGarbage currentTime = manager.collected (timedOut currentTime) :=
  collectFrom_eq currentTime (List.nil_append _).symm

theorem timedOut_iff {currentTime : UInt64} {tracker : ResourceTracker} :
    timedOut currentTime tracker = true ↔ tracker.isInUse = false ∧ tracker.isPriority = false ∧
      RESOURCE_TIMEOUT < currentTime - tracker.lastUseTime := by
  simp [timedOut, and_assoc]

/-- The difference of the clock readings wraps where the resource was used after
`currentTime`. -/
theorem timedOut_eq_idle_iff {currentTime : UInt64} {tracker : ResourceTracker} :
    timedOut currentTime tracker = decide (Idle currentTime tracker) ↔ NotAhead currentTime tracker := by
  have hnow := currentTime.toNat_lt
  have hlast := tracker.lastUseTime.toNat_lt
  have htimeout : RESOURCE_TIMEOUT.toNat = 5000 := rfl
  have hsub := UInt64.toNat_sub currentTime tracker.lastUseTime
  rw [Bool.eq_iff_iff, timedOut_iff, decide_eq_true_eq, Idle, NotAhead, UInt64.lt_iff_toNat_lt,
    UInt64.le_iff_toNat_le, hsub, htimeout]
  by_cases hkept : tracker.isInUse = false ∧ tracker.isPriority = false
  · simp only [hkept.1, hkept.2, true_and, forall_const]
    omega
  · have hused (huse : tracker.isInUse = false) (hpriority : tracker.isPriority = false) : False :=
      hkept ⟨huse, hpriority⟩
    refine iff_of_true ⟨fun h => (hused h.1 h.2.1).elim, fun h => (hused h.1 h.2.1).elim⟩ ?_
    exact fun huse hpriority => (hused huse hpriority).elim

theorem collected_congr {p q : ResourceTracker → Bool} (h : ∀ tracker ∈ manager.resources, p tracker = q tracker) :
    manager.collected p = manager.collected q := by
  have hkept : (manager.resources.filter fun tracker => !p tracker) =
      manager.resources.filter fun tracker => !q tracker :=
    List.filter_congr fun tracker hmem => congrArg _ (h tracker hmem)
  rw [collected, collected, List.filter_congr h, hkept]

/-- What is removed tells the predicates apart. -/
theorem collected_inj {p q : ResourceTracker → Bool} (h : manager.collected p = manager.collected q)
    {tracker : ResourceTracker} (hmem : tracker ∈ manager.resources) : p tracker = q tracker := by
  have hkept : (manager.resources.filter fun tracker => !p tracker) =
      manager.resources.filter fun tracker => !q tracker := congrArg GraphicsRecords.resources h
  have hiff := congrArg (tracker ∈ ·) hkept
  simpa [List.mem_filter, hmem] using hiff

/-- A collection releases and removes the idle resources, and no others, exactly
when none of the resources it may remove was used after `currentTime`. -/
theorem collectGarbage_idle_iff (manager : GraphicsRecords) (currentTime : UInt64) :
    manager.collectGarbage currentTime = manager.collected (fun tracker => decide (Idle currentTime tracker)) ↔
      ∀ tracker ∈ manager.resources, NotAhead currentTime tracker := by
  rw [collectGarbage_eq]
  constructor
  · intro h tracker hmem
    exact timedOut_eq_idle_iff.mp (collected_inj h hmem)
  · intro h
    exact collected_congr fun tracker hmem => timedOut_eq_idle_iff.mpr (h tracker hmem)

/-- A resource that was used just before the clock was set back. -/
theorem collected_too_early :
    let manager : GraphicsRecords :=
      { gpuCache := ∅, currentCacheSize := 64, resources := [⟨0x1000, 20000, 64, false, false⟩]
        resourceInfoMap := AList.singleton 0x1000 (.TEXTURE 0x1000 0), releases := [] }
    manager.collectGarbage 19999 ≠ manager.collected fun tracker => decide (Idle 19999 tracker) := by
  intro manager h
  rw [collectGarbage_eq] at h
  have hsame := collected_inj h (List.mem_singleton_self _)
  revert hsame
  decide

end GraphicsRecords

end Kernel.Memory
