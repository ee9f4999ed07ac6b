import KernelcModerne.Memory.GraphicsRecords
import KernelcModerne.Memory.VideoMemory

open Transition

namespace Kernel.Memory

open EnhancedGraphicsResourceManager

/-- The records of the manager with its two pools. -/
structure VideoResources extends GraphicsRecords where
  dedicatedVRAM : VideoMemory
  sharedVRAM : MemoryPool

namespace GraphicsRecords

/-- How often a record has a pointer. -/
def occurrences (pointer _location : UInt64) (info : ResourceInfo) : Nat := info.pointers.count pointer

/-- How often a pointer is recorded or was released. -/
def references (manager : GraphicsRecords) (pointer : UInt64) : Nat :=
  manager.releases.count pointer + manager.resourceInfoMap.total (occurrences pointer)

/-- After a call nothing is recorded at new locations, and no pointer but null is
recorded or released more or less often. -/
structure Keeps (manager after : GraphicsRecords) : Prop where
  locations : ∀ location ∈ after.resourceInfoMap, location ∈ manager.resourceInfoMap
  references_eq : ∀ pointer, pointer ≠ 0 → after.references pointer = manager.references pointer

theorem Keeps.refl (manager : GraphicsRecords) : Keeps manager manager := ⟨fun _ h => h, fun _ _ => rfl⟩

theorem Keeps.trans {manager middle after : GraphicsRecords} (h : Keeps manager middle)
    (h' : Keeps middle after) : Keeps manager after where
  locations location hmem := h.locations location (h'.locations location hmem)
  references_eq pointer hpointer := (h'.references_eq pointer hpointer).trans (h.references_eq pointer hpointer)

theorem keeps_release (manager : GraphicsRecords) (tracker : ResourceTracker) :
    Keeps manager (manager.release tracker) := by
  simp only [release, releaseResource]
  split
  · exact ⟨fun _ h => h, fun _ _ => rfl⟩
  · next info hlookup =>
    refine ⟨fun location hmem => (AList.mem_erase.mp hmem).2, fun pointer hpointer => ?_⟩
    have htotal := AList.total_erase_of_lookup (occurrences pointer) hlookup
    have hcount : (info.pointers.filter (· ≠ 0)).count pointer = info.pointers.count pointer :=
      List.count_filter (by simpa using hpointer)
    simp only [references, List.count_append, hcount, htotal, occurrences]
    omega

theorem keeps_collected (p : ResourceTracker → Bool) (manager : GraphicsRecords) :
    Keeps manager (manager.collected p) := by
  have hfoldl (trackers : List ResourceTracker) : Keeps manager (trackers.foldl release manager) := by
    induction trackers using List.reverseRecOn with
    | nil => exact .refl manager
    | append_singleton trackers tracker ih =>
      rw [List.foldl_concat]
      exact ih.trans (keeps_release _ tracker)
  exact ⟨(hfoldl _).locations, (hfoldl _).references_eq⟩

/-- The record of a resource is moved with its pointers. -/
theorem updateResourceLocation_spec {manager after : GraphicsRecords} {oldLocation newLocation : UInt64}
    {rehashes : Bool} (hnew : newLocation ∉ manager.resourceInfoMap)
    (h : manager.updateResourceLocation oldLocation newLocation rehashes = some after) :
    (∀ pointer, after.references pointer = manager.references pointer) ∧
      ∀ location ∈ after.resourceInfoMap, location = newLocation ∨ location ∈ manager.resourceInfoMap := by
  unfold updateResourceLocation at h
  split at h
  · next info hold =>
    split at h
    · cases h
    · obtain rfl := Option.some.inj h
      have hne : oldLocation ≠ newLocation := by
        rintro rfl
        exact hnew (AList.mem_of_lookup hold)
      constructor
      · intro pointer
        have hinserted : (manager.resourceInfoMap.insert newLocation info).lookup oldLocation = some info := by
          rw [AList.lookup_insert_ne hne, hold]
        have htotal := AList.total_erase_of_lookup (occurrences pointer) hinserted
        rw [AList.total_insert_of_lookup_none _ (AList.lookup_eq_none.mpr hnew)] at htotal
        simp only [references]
        simp only [occurrences] at htotal
        omega
      · intro location hmem
        exact (AList.mem_insert _).mp (AList.mem_erase.mp hmem).2
  · obtain rfl := Option.some.inj h
    exact ⟨fun _ => rfl, fun _ hmem => .inr hmem⟩

end GraphicsRecords

namespace VideoResources

/-- No record and no block of the shared memory is at the location. -/
def Unused (manager : VideoResources) (location : UInt64) : Prop :=
  location ∉ manager.resourceInfoMap ∧ ∀ block ∈ manager.sharedVRAM.blocks, block.address ≠ location

/-- The order of `prioritizeGameTextures`. -/
def priorityKey (tracker : ResourceTracker) : Nat :=
  (if tracker.isPriority then 0 else 2 ^ 65) + (if tracker.isInUse then 0 else 2 ^ 64) +
    (2 ^ 64 - 1 - tracker.lastUseTime.toNat)

/-- What comes from outside during a call: the readings of the clock, the sorts,
the answers of `CreateTexture2D` and `VirtualAlloc` (0 for null), the sizes of
textures, and whether an insertion into the map rehashes it. A location that is
answered is not one in use. -/
structure Platform where
  clock : Nat → UInt64
  sortBlocks : KeySort VideoMemory.addressKey
  sortTrackers : KeySort priorityKey
  sortLocations : ∀ key : UInt64 → Nat, KeySort key
  CreateTexture2D : VideoResources → UInt64 → Option UInt64
  VirtualAlloc : VideoResources → UInt64 → UInt64
  calculateResourceSize : UInt64 → UInt64
  rehashes : VideoResources → Bool
  unused_CreateTexture2D : ∀ manager texture location,
    CreateTexture2D manager texture = some location → manager.Unused location
  unused_VirtualAlloc : ∀ manager size,
    VirtualAlloc manager size ≠ 0 → manager.Unused (VirtualAlloc manager size)

variable (platform : Platform)

def updateLocation (manager : VideoResources) (oldLocation newLocation : UInt64) : Option VideoResources :=
  (manager.toGraphicsRecords.updateResourceLocation oldLocation newLocation (platform.rehashes manager)).map
    fun records => { manager with toGraphicsRecords := records }

def collectGarbage (manager : VideoResources) (currentTime : UInt64) : VideoResources :=
  { manager with toGraphicsRecords := manager.toGraphicsRecords.collectGarbage currentTime }

def defragmentMemory (manager : VideoResources) : Option VideoResources :=
  (manager.dedicatedVRAM.defragmentMemory platform.sortBlocks).toOption.map
    fun dedicatedVRAM => { manager with dedicatedVRAM }

/-- The body of the loop of `compactResources`, with `activeResources`. -/
def compactOne (compacted : GraphicsRecords × List ResourceTracker) (resource : ResourceTracker) :
    GraphicsRecords × List ResourceTracker :=
  if resource.isInUse || resource.isPriority then (compacted.1, compacted.2 ++ [resource])
  else (compacted.1.release resource, compacted.2)

def compactResources (manager : VideoResources) : Option VideoResources :=
  let (records, activeResources) := manager.resources.foldl compactOne (manager.toGraphicsRecords, [])
  defragmentMemory platform { manager with toGraphicsRecords := { records with resources := activeResources } }

def moveResourceToDedicatedVRAM (manager : VideoResources) (resource : UInt64) : Option VideoResources :=
  match manager.resourceInfoMap.lookup resource with
  | some (.TEXTURE texture _) =>
    match platform.CreateTexture2D manager texture with
    | some newTexture => updateLocation platform manager resource newTexture
    | none => some manager
  | _ => some manager

/-- The body of the loop of `prioritizeGameTextures`. Moving a resource changes
the list, but not its length. -/
def prioritizeAt (manager : VideoResources) (i : Nat) : Option VideoResources :=
  match manager.resources[i]? with
  | some tracker =>
    if tracker.isPriority && tracker.isInUse then
      match manager.resourceInfoMap.lookup tracker.resource with
      | some (.TEXTURE _ _) => moveResourceToDedicatedVRAM platform manager tracker.resource
      | _ => some manager
    else some manager
  | none => some manager

def prioritizeGameTextures (manager : VideoResources) : Option VideoResources :=
  let manager := { manager with resources := platform.sortTrackers.sort manager.resources }
  run (prioritizeAt platform) manager (List.range manager.resources.length)

def optimizeMemoryAllocation (manager : VideoResources) : Option VideoResources := do
  let manager ← defragmentMemory platform manager
  let manager ← compactResources platform manager
  prioritizeGameTextures platform manager

/-- When the resource was used last, for the sort of `getLowPriorityResources`. -/
def lastUse (manager : VideoResources) (resource : UInt64) : Nat :=
  ((manager.resources.find? fun tracker => tracker.resource = resource).map fun tracker =>
    tracker.lastUseTime.toNat).getD 0

def getLowPriorityResources (manager : VideoResources) : List UInt64 :=
  let lowPriority := manager.resources.zipIdx.filter fun (tracker, i) =>
    GraphicsRecords.timedOut (platform.clock i) tracker
  (platform.sortLocations manager.lastUse).sort (lowPriority.map fun (tracker, _) => tracker.resource)

/-- The address that is answered, and the manager after. -/
def allocateInSharedMemory (manager : VideoResources) (texture : UInt64) : UInt64 × VideoResources :=
  let size := platform.calculateResourceSize texture
  match manager.sharedVRAM.blocks.find? (VideoMemory.suits size) with
  | some block =>
    let it := manager.sharedVRAM.blocks.findIdx (VideoMemory.suits size)
    (block.address, { manager with
      sharedVRAM := { manager.sharedVRAM with
        usedSize := manager.sharedVRAM.usedSize + size
        blocks := manager.sharedVRAM.blocks.modify it fun block => { block with isFree := false } } })
  | none =>
    let newBlock := platform.VirtualAlloc manager size
    if newBlock = 0 then (newBlock, manager)
    else
      (newBlock, { manager with
        sharedVRAM := { manager.sharedVRAM with
          usedSize := manager.sharedVRAM.usedSize + size
          blocks := manager.sharedVRAM.blocks ++ [⟨newBlock, size, false⟩] } })

/-- The body of the loop of `moveToSharedMemory`, which reads the record as that
of a texture. The copied bytes are outside. -/
def moveToShared (manager : VideoResources) (resource : UInt64) : Option VideoResources :=
  match manager.resourceInfoMap.lookup resource with
  | none => some manager
  | some (.TEXTURE texture _) =>
    let (newLocation, manager) := allocateInSharedMemory platform manager texture
    if newLocation = 0 then some manager else updateLocation platform manager resource newLocation
  | some _ => none

def moveToSharedMemory (manager : VideoResources) (resourceList : List UInt64) : Option VideoResources :=
  run (moveToShared platform) manager resourceList

/-- The first part of `allocateGameResources`. -/
def makeRoom (manager : VideoResources) (requiredMemory : UInt64) : Option VideoResources :=
  if manager.dedicatedVRAM.usedSize + requiredMemory > manager.dedicatedVRAM.totalSize then
    moveToSharedMemory platform manager (getLowPriorityResources platform manager)
  else some manager

/-- `fuel` bounds how often `reserveMemoryBlock` calls itself. -/
def allocateGameResources (manager : VideoResources) (requiredMemory : UInt64) (fuel : Nat) :
    Option VideoResources := do
  let manager ← makeRoom platform manager requiredMemory
  let dedicatedVRAM ←
    (manager.dedicatedVRAM.reserveMemoryBlock platform.sortBlocks requiredMemory fuel).toOption
  return { manager with dedicatedVRAM }

inductive Op where
  | collectGarbage (currentTime : UInt64)
  | optimizeMemoryAllocation (platform : Platform)
  | allocateGameResources (platform : Platform) (requiredMemory : UInt64) (fuel : Nat)

def step (manager : VideoResources) : Op → Option VideoResources
  | .collectGarbage currentTime => some (manager.collectGarbage currentTime)
  | .optimizeMemoryAllocation platform => optimizeMemoryAllocation platform manager
  | .allocateGameResources platform requiredMemory fuel =>
    allocateGameResources platform manager requiredMemory fuel

/-- The addresses of the free blocks. -/
def freeAddresses (pool : MemoryPool) : List UInt64 :=
  (pool.blocks.filter MemoryBlock.isFree).map MemoryBlock.address

/-- The free blocks of the shared memory have addresses of their own, where
nothing is recorded. -/
structure Apart (manager : VideoResources) : Prop where
  nodup : (freeAddresses manager.sharedVRAM).Nodup
  unrecorded : ∀ address ∈ freeAddresses manager.sharedVRAM, address ∉ manager.resourceInfoMap

/-- The state is apart, and each pointer but null is recorded or was released as
often as at the start. -/
structure Sound (start manager : VideoResources) : Prop where
  apart : manager.Apart
  references_eq : ∀ pointer, pointer ≠ 0 → manager.references pointer = start.references pointer

variable {platform} {start manager after : VideoResources}

theorem Sound.of_keeps (h : Sound start manager)
    (hkeeps : GraphicsRecords.Keeps manager.toGraphicsRecords after.toGraphicsRecords)
    (hshared : after.sharedVRAM = manager.sharedVRAM) : Sound start after where
  apart :=
    { nodup := hshared ▸ h.apart.nodup
      unrecorded := fun address hfree hmem =>
        h.apart.unrecorded address (hshared ▸ hfree) (hkeeps.locations address hmem) }
  references_eq pointer hpointer :=
    (hkeeps.references_eq pointer hpointer).trans (h.references_eq pointer hpointer)

theorem Sound.collectGarbage (h : Sound start manager) (currentTime : UInt64) :
    Sound start (manager.collectGarbage currentTime) := by
  refine h.of_keeps ?_ rfl
  rw [VideoResources.collectGarbage, GraphicsRecords.collectGarbage_eq]
  exact GraphicsRecords.keeps_collected _ _

theorem Sound.defragmentMemory (h : Sound start manager)
    (hstep : defragmentMemory platform manager = some after) : Sound start after := by
  rw [VideoResources.defragmentMemory, Option.map_eq_some_iff] at hstep
  obtain ⟨dedicatedVRAM, _, rfl⟩ := hstep
  exact h.of_keeps (.refl _) rfl

/-- What `compactResources` releases. -/
def inactive (tracker : ResourceTracker) : Bool := !(tracker.isInUse || tracker.isPriority)

theorem foldl_compactOne (resources : List ResourceTracker)
    (compacted : GraphicsRecords × List ResourceTracker) :
    resources.foldl compactOne compacted =
      ((resources.filter inactive).foldl GraphicsRecords.release compacted.1,
        compacted.2 ++ resources.filter fun tracker => !inactive tracker) := by
  induction resources generalizing compacted with
  | nil => simp
  | cons tracker resources ih =>
    rw [List.foldl_cons, ih, compactOne]
    cases hactive : tracker.isInUse || tracker.isPriority with
    | true => simp [inactive, hactive]
    | false => simp [inactive, hactive]

theorem Sound.compactResources (h : Sound start manager)
    (hstep : compactResources platform manager = some after) : Sound start after := by
  rw [VideoResources.compactResources, foldl_compactOne] at hstep
  have hkept : Sound start
      { manager with toGraphicsRecords := manager.toGraphicsRecords.collected inactive } :=
    h.of_keeps (GraphicsRecords.keeps_collected inactive _) rfl
  exact hkept.defragmentMemory hstep

theorem Sound.updateLocation (h : Sound start manager) {oldLocation newLocation : UInt64}
    (hnew : newLocation ∉ manager.resourceInfoMap) (hfree : newLocation ∉ freeAddresses manager.sharedVRAM)
    (hstep : updateLocation platform manager oldLocation newLocation = some after) : Sound start after := by
  rw [VideoResources.updateLocation, Option.map_eq_some_iff] at hstep
  obtain ⟨records, hrecords, rfl⟩ := hstep
  obtain ⟨hreferences, hlocations⟩ := GraphicsRecords.updateResourceLocation_spec hnew hrecords
  refine ⟨⟨h.apart.nodup, fun address haddress hmem => ?_⟩, fun pointer hpointer => ?_⟩
  · obtain rfl | hmem := hlocations address hmem
    · exact hfree haddress
    · exact h.apart.unrecorded address haddress hmem
  · exact (hreferences pointer).trans (h.references_eq pointer hpointer)

theorem Unused.not_mem_freeAddresses {location : UInt64} (h : manager.Unused location) :
    location ∉ freeAddresses manager.sharedVRAM := by
  intro hmem
  obtain ⟨block, hblock, haddress⟩ := List.mem_map.mp hmem
  exact h.2 block (List.mem_of_mem_filter hblock) haddress

theorem Sound.moveResourceToDedicatedVRAM (h : Sound start manager) {resource : UInt64}
    (hstep : moveResourceToDedicatedVRAM platform manager resource = some after) : Sound start after := by
  unfold VideoResources.moveResourceToDedicatedVRAM at hstep
  split at hstep
  · next texture srv _ =>
    split at hstep
    · next newTexture hcreated =>
      have hunused := platform.unused_CreateTexture2D manager texture newTexture hcreated
      exact h.updateLocation hunused.1 hunused.not_mem_freeAddresses hstep
    · exact Option.some.inj hstep ▸ h
  · exact Option.some.inj hstep ▸ h

theorem Sound.prioritizeAt (h : Sound start manager) {i : Nat}
    (hstep : prioritizeAt platform manager i = some after) : Sound start after := by
  unfold VideoResources.prioritizeAt at hstep
  split at hstep
  · split at hstep
    · split at hstep
      · exact h.moveResourceToDedicatedVRAM hstep
      · exact Option.some.inj hstep ▸ h
    · exact Option.some.inj hstep ▸ h
  · exact Option.some.inj hstep ▸ h

theorem Sound.prioritizeGameTextures (h : Sound start manager)
    (hstep : prioritizeGameTextures platform manager = some after) : Sound start after := by
  refine run_invariant (Sound start) (fun _ _ _ h hstep => h.prioritizeAt hstep) _ ?_ hstep
  exact h.of_keeps ⟨fun _ hmem => hmem, fun _ _ => rfl⟩ rfl

theorem Sound.optimizeMemoryAllocation (h : Sound start manager)
    (hstep : optimizeMemoryAllocation platform manager = some after) : Sound start after := by
  rw [VideoResources.optimizeMemoryAllocation, Option.bind_eq_bind, Option.bind_eq_some_iff] at hstep
  obtain ⟨defragmented, hdefragment, hstep⟩ := hstep
  rw [Option.bind_eq_some_iff] at hstep
  obtain ⟨compacted, hcompact, hstep⟩ := hstep
  exact ((h.defragmentMemory hdefragment).compactResources hcompact).prioritizeGameTextures hstep

/-- A block that is handed out leaves the free ones. -/
theorem freeAddresses_modify {pool : MemoryPool} {size : UInt64} {block : MemoryBlock}
    (hfind : pool.blocks.find? (VideoMemory.suits size) = some block) (usedSize : UInt64) :
    (freeAddresses pool).Perm (block.address :: freeAddresses
      { pool with
        usedSize
        blocks := pool.blocks.modify (pool.blocks.findIdx (VideoMemory.suits size)) fun block =>
          { block with isFree := false } }) := by
  let vram : VideoMemory := { pool with moves := [] }
  have hvram : vram.blocks.find? (VideoMemory.suits size) = some block := hfind
  obtain ⟨earlier, later, hsplit, _, hsuits, hidx⟩ := VideoMemory.find_suits hvram
  have hblocks : pool.blocks = earlier ++ block :: later := hsplit
  have hit : pool.blocks.findIdx (VideoMemory.suits size) = earlier.length := hidx
  have hfree : block.isFree = true := (Bool.and_eq_true_iff.mp hsuits).1
  simp only [freeAddresses, hit]
  rw [hblocks, VideoMemory.modify_at, List.filter_append, List.filter_append, List.filter_cons_of_pos hfree,
    List.filter_cons_of_neg Bool.false_ne_true, List.map_append, List.map_append]
  exact List.perm_middle

/-- An address that is answered is recorded nowhere, and no free block is there. -/
theorem Sound.allocateInSharedMemory (h : Sound start manager) {texture address : UInt64}
    (hstep : allocateInSharedMemory platform manager texture = (address, after)) :
    Sound start after ∧
      (address ≠ 0 → address ∉ after.resourceInfoMap ∧ address ∉ freeAddresses after.sharedVRAM) := by
  simp only [VideoResources.allocateInSharedMemory] at hstep
  split at hstep
  · next block hfind =>
    obtain ⟨rfl, rfl⟩ := Prod.mk.inj hstep
    have hperm := freeAddresses_modify hfind
      (manager.sharedVRAM.usedSize + platform.calculateResourceSize texture)
    have hnodup := List.nodup_cons.mp (hperm.nodup_iff.mp h.apart.nodup)
    have hunrecorded := h.apart.unrecorded
    simp only [hperm.mem_iff, List.mem_cons, forall_eq_or_imp] at hunrecorded
    exact ⟨⟨⟨hnodup.2, hunrecorded.2⟩, h.references_eq⟩, fun _ => ⟨hunrecorded.1, hnodup.1⟩⟩
  · split at hstep
    · next hnull =>
      obtain ⟨rfl, rfl⟩ := Prod.mk.inj hstep
      exact ⟨h, fun hne => absurd hnull hne⟩
    · next hanswer =>
      obtain ⟨rfl, rfl⟩ := Prod.mk.inj hstep
      have hunused := platform.unused_VirtualAlloc manager _ hanswer
      have hfree (address size usedSize : UInt64) : freeAddresses
          { manager.sharedVRAM with
            usedSize
            blocks := manager.sharedVRAM.blocks ++ [⟨address, size, false⟩] } =
          freeAddresses manager.sharedVRAM := by
        simp [freeAddresses]
      refine ⟨⟨⟨?_, ?_⟩, h.references_eq⟩, fun _ => ⟨hunused.1, ?_⟩⟩
      · exact (hfree _ _ _).symm ▸ h.apart.nodup
      · exact (hfree _ _ _).symm ▸ h.apart.unrecorded
      · exact (hfree _ _ _).symm ▸ hunused.not_mem_freeAddresses

theorem Sound.moveToShared (h : Sound start manager) {resource : UInt64}
    (hstep : moveToShared platform manager resource = some after) : Sound start after := by
  unfold VideoResources.moveToShared at hstep
  split at hstep
  · exact Option.some.inj hstep ▸ h
  · next texture srv _ =>
    cases hallocated : VideoResources.allocateInSharedMemory platform manager texture with
    | mk newLocation allocated =>
      obtain ⟨hsound, hunused⟩ := h.allocateInSharedMemory hallocated
      simp only [hallocated] at hstep
      split at hstep
      · exact Option.some.inj hstep ▸ hsound
      · next hanswer => exact hsound.updateLocation (hunused hanswer).1 (hunused hanswer).2 hstep
  · cases hstep

theorem Sound.moveToSharedMemory (h : Sound start manager) {resourceList : List UInt64}
    (hstep : moveToSharedMemory platform manager resourceList = some after) : Sound start after :=
  run_invariant (Sound start) (fun _ _ _ h hstep => h.moveToShared hstep) resourceList h hstep

theorem Sound.allocateGameResources (h : Sound start manager) {requiredMemory : UInt64} {fuel : Nat}
    (hstep : allocateGameResources platform manager requiredMemory fuel = some after) : Sound start after := by
  rw [VideoResources.allocateGameResources, Option.bind_eq_bind, Option.bind_eq_some_iff] at hstep
  obtain ⟨moved, hmoved, hstep⟩ := hstep
  rw [Option.bind_eq_bind, Option.bind_eq_some_iff] at hstep
  obtain ⟨dedicatedVRAM, _, hafter⟩ := hstep
  obtain rfl := Option.some.inj hafter
  have hsound : Sound start moved := by
    rw [makeRoom] at hmoved
    split at hmoved
    · exact h.moveToSharedMemory hmoved
    · exact Option.some.inj hmoved ▸ h
  exact hsound.of_keeps (.refl _) rfl

theorem Sound.step (h : Sound start manager) {op : Op} (hstep : manager.step op = some after) :
    Sound start after := by
  cases op with
  | collectGarbage currentTime =>
    obtain rfl := Option.some.inj hstep
    exact h.collectGarbage currentTime
  | optimizeMemoryAllocation platform => exact h.optimizeMemoryAllocation hstep
  | allocateGameResources platform requiredMemory fuel => exact h.allocateGameResources hstep

/-- However resources are collected and moved, every pointer is recorded or was
released as often as at the start: none is lost, and none released twice. A
texture that a resource was moved to is not released at all. -/
theorem always_released_once (hstart : start.Apart) (ops : List Op) :
    Always step (fun manager => ∀ pointer, pointer ≠ 0 → manager.references pointer = start.references pointer)
      start ops := by
  have hsound : Always step (Sound start) start ops :=
    always_of_step (fun _ _ _ h hstep => h.step hstep) ops ⟨hstart, fun _ _ => rfl⟩
  exact hsound.imp fun _ h => h.references_eq

/-- A platform without other memory, after 10 seconds. -/
def exhausted : Platform where
  clock := fun _ => 10000
  sortBlocks := .stable _
  sortTrackers := .stable _
  sortLocations := fun _ => .stable _
  CreateTexture2D := fun _ _ => none
  VirtualAlloc := fun _ _ => 0
  calculateResourceSize := fun _ => 64
  rehashes := fun _ => false
  unused_CreateTexture2D := nofun
  unused_VirtualAlloc := fun _ _ hne => absurd rfl hne

/-- A texture that is not in use, and a free block for it in the shared memory. -/
def idle : VideoResources where
  gpuCache := ∅
  currentCacheSize := 64
  resources := [⟨0x1000, 10, 64, false, false⟩]
  resourceInfoMap := AList.singleton 0x1000 (.TEXTURE 0x1000 0)
  releases := []
  dedicatedVRAM := { totalSize := 64, usedSize := 64, blocks := [⟨0x8000, 64, true⟩], moves := [] }
  sharedVRAM := { totalSize := 64, usedSize := 0, blocks := [⟨0x2000, 64, true⟩] }

theorem always_released_once_idle :
    Always step (fun manager => ∀ pointer, pointer ≠ 0 → manager.references pointer = idle.references pointer)
      idle [.allocateGameResources exhausted 64 1, .collectGarbage 10000] := by
  have hfree : freeAddresses idle.sharedVRAM = [0x2000] := rfl
  refine always_released_once ⟨hfree ▸ List.nodup_singleton _, fun address haddress => ?_⟩ _
  obtain rfl := List.mem_singleton.mp (hfree ▸ haddress)
  rw [AList.mem_keys, idle, AList.keys_singleton]
  exact fun hmem => absurd (List.mem_singleton.mp hmem) (by decide)

end VideoResources

end Kernel.Memory
