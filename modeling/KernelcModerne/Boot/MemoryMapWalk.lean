import Mathlib.Tactic.SplitIfs
import KernelcModerne.Boot.MemoryMap

namespace Kernel.Multiboot

/-- A read of `size` bytes from `address` on. -/
structure Load where
  address : UInt64
  size : Nat

def loadSize (mmap : UInt64) : Load := ⟨mmap, 4⟩
def loadAddr (mmap : UInt64) : Load := ⟨mmap + 4, 8⟩
def loadLen (mmap : UInt64) : Load := ⟨mmap + 12, 8⟩
def loadType (mmap : UInt64) : Load := ⟨mmap + 20, 4⟩

/-- A loop over the map: what it does with an entry, and the fields that it reads
of one for that and to go on. -/
structure MapLoop where
  visit : MemoryWalk → MemoryMapEntry → MemoryWalk
  loads : UInt64 → MemoryMapEntry → List Load

/-- The loop of `detectMemoryCapacity`. -/
def capacityLoop : MapLoop where
  visit := MemoryWalk.visit
  loads mmap entry :=
    if entry.type = MULTIBOOT_MEMORY_AVAILABLE then
      [loadType mmap, loadLen mmap, loadAddr mmap, loadAddr mmap, loadLen mmap, loadSize mmap]
    else if entry.type = MULTIBOOT_MEMORY_RESERVED then [loadType mmap, loadLen mmap, loadSize mmap]
    else if entry.type = MULTIBOOT_MEMORY_ACPI_RECLAIMABLE then [loadType mmap, loadLen mmap, loadSize mmap]
    else [loadType mmap, loadSize mmap]

/-- The loop of `detectMemory`. -/
def detectLoop : MapLoop where
  visit walk entry :=
    if entry.type = MULTIBOOT_MEMORY_AVAILABLE then
      { walk with freeRegions := walk.freeRegions ++ [(entry.addr, entry.addr + entry.len)] }
    else walk
  loads mmap entry :=
    if entry.type = MULTIBOOT_MEMORY_AVAILABLE then
      [loadType mmap, loadAddr mmap, loadAddr mmap, loadLen mmap, loadSize mmap]
    else [loadType mmap, loadSize mmap]

/-- A walk and all that it has read. -/
structure LoggedWalk where
  walk : MemoryWalk := {}
  loads : List Load := []

/-- Where the entry behind that at `mmap` begins. -/
def nextEntry (memory : UInt64 → UInt8) (mmap : UInt64) : UInt64 :=
  mmap + (entryAt memory mmap).size.toUInt64 + 4

/-- The body of the loop. -/
def MapLoop.round (loop : MapLoop) (memory : UInt64 → UInt8) (logged : LoggedWalk) (mmap : UInt64) :
    LoggedWalk where
  walk := loop.visit logged.walk (entryAt memory mmap)
  loads := logged.loads ++ loop.loads mmap (entryAt memory mmap)

/-- A loop over the map, for at most `fuel` tests of its condition. -/
def MapLoop.runFrom (loop : MapLoop) (memory : UInt64 → UInt8) (stop : UInt64) :
    Nat → UInt64 → LoggedWalk → Option LoggedWalk
  | 0, _, _ => none
  | fuel + 1, mmap, logged =>
    if mmap < stop then loop.runFrom memory stop fuel (nextEntry memory mmap) (loop.round memory logged mmap)
    else some logged

/-- The end of the map, as the loops compute it. -/
def Info.stop (mbi : Info) : UInt64 := (mbi.mmap_addr + mbi.mmap_length).toUInt64

def MapLoop.run (loop : MapLoop) (mbi : Info) (memory : UInt64 → UInt8) : Option LoggedWalk :=
  loop.runFrom memory mbi.stop (2 ^ 64) mbi.mmap_addr.toUInt64 {}

/-- The loop ends, has read inside of the map only, and has added no region that
ends before it begins. -/
def MapLoop.Safe (loop : MapLoop) (mbi : Info) (memory : UInt64 → UInt8) : Prop :=
  ∃ logged, loop.run mbi memory = some logged ∧
    (∀ load ∈ logged.loads, mbi.mmap_addr.toNat ≤ load.address.toNat ∧
      load.address.toNat + load.size ≤ mbi.mmap_addr.toNat + mbi.mmap_length.toNat) ∧
    ∀ region ∈ logged.walk.freeRegions, region.1 ≤ region.2

/-- An entry of the chain that begins at `start` begins at an address before
`stop`. -/
inductive BeginsAt (memory : UInt64 → UInt8) (stop : UInt64) : UInt64 → UInt64 → Prop
  | first {start : UInt64} : start < stop → BeginsAt memory stop start start
  | later {start mmap : UInt64} :
    start < stop → BeginsAt memory stop (nextEntry memory start) mmap → BeginsAt memory stop start mmap

/-- Every entry that begins in the map ends in it, and no available region
reaches past the end of the address space. -/
def Info.WellFormed (mbi : Info) (memory : UInt64 → UInt8) : Prop :=
  ∀ mmap, BeginsAt memory mbi.stop mbi.mmap_addr.toUInt64 mmap →
    mmap.toNat + 24 ≤ mbi.mmap_addr.toNat + mbi.mmap_length.toNat ∧
      ((entryAt memory mmap).type = MULTIBOOT_MEMORY_AVAILABLE →
        (entryAt memory mmap).addr.toNat + (entryAt memory mmap).len.toNat < 2 ^ 64)

/-- The addresses of the entries that a loop visits. -/
def visited (memory : UInt64 → UInt8) (stop : UInt64) : Nat → UInt64 → Option (List UInt64)
  | 0, _ => none
  | fuel + 1, mmap =>
    if mmap < stop then (visited memory stop fuel (nextEntry memory mmap)).map (mmap :: ·) else some []

variable {memory : UInt64 → UInt8} {stop mmap : UInt64} {fuel : Nat} {loop : MapLoop}

/-- The loop of the boot functions' model is the first of the two. -/
theorem walkMemoryMap_eq (logged : LoggedWalk) :
    walkMemoryMap memory stop fuel mmap logged.walk =
      (capacityLoop.runFrom memory stop fuel mmap logged).map LoggedWalk.walk := by
  induction fuel generalizing mmap logged with
  | zero => rfl
  | succ fuel ih =>
    rw [walkMemoryMap, MapLoop.runFrom]
    split
    · exact ih (capacityLoop.round memory logged mmap)
    · rfl

theorem runFrom_eq (logged : LoggedWalk) :
    loop.runFrom memory stop fuel mmap logged =
      (visited memory stop fuel mmap).map fun addresses => addresses.foldl (loop.round memory) logged := by
  induction fuel generalizing mmap logged with
  | zero => rfl
  | succ fuel ih =>
    rw [MapLoop.runFrom, visited]
    split
    · rw [ih, Option.map_map]
      rfl
    · rfl

theorem toNat_nextEntry (memory : UInt64 → UInt8) (hmmap : mmap.toNat < 2 ^ 32) :
    (nextEntry memory mmap).toNat = mmap.toNat + (entryAt memory mmap).size.toNat + 4 := by
  have hsize := (entryAt memory mmap).size.toNat_lt
  have hfour : (4 : UInt64).toNat = 4 := rfl
  rw [nextEntry, UInt64.toNat_add, UInt64.toNat_add, UInt32.toNat_toUInt64, hfour]
  omega

/-- Each entry lies behind the one before, so a loop up to a 32-bit address
ends. -/
theorem visited_isSome (hstop : stop.toNat < 2 ^ 32) (hfuel : stop.toNat - mmap.toNat < fuel) :
    (visited memory stop fuel mmap).isSome := by
  induction fuel generalizing mmap with
  | zero => omega
  | succ fuel ih =>
    rw [visited]
    split
    · next hlt =>
      rw [UInt64.lt_iff_toNat_lt] at hlt
      have hnext := toNat_nextEntry memory (Nat.lt_trans hlt hstop)
      rw [Option.isSome_map]
      exact ih (by omega)
    · rfl

theorem mem_visited {addresses : List UInt64} (h : visited memory stop fuel mmap = some addresses)
    (address : UInt64) :
    address ∈ addresses ↔ BeginsAt memory stop mmap address := by
  induction fuel generalizing mmap addresses with
  | zero => cases h
  | succ fuel ih =>
    rw [visited] at h
    split at h
    · next hlt =>
      obtain ⟨rest, hrest, rfl⟩ := Option.map_eq_some_iff.mp h
      rw [List.mem_cons, ih hrest]
      constructor
      · rintro (rfl | hlater)
        · exact .first hlt
        · exact .later hlt hlater
      · intro hbegins
        cases hbegins with
        | first => exact .inl rfl
        | later _ hlater => exact .inr hlater
    · next hge =>
      obtain rfl := Option.some.inj h
      constructor
      · exact nofun
      · intro hbegins
        cases hbegins with
        | first hlt => exact absurd hlt hge
        | later hlt _ => exact absurd hlt hge

/-- An entry of the chain lies between its beginning and `stop`. -/
theorem BeginsAt.bounds {start : UInt64} (h : BeginsAt memory stop start mmap) (hstop : stop.toNat < 2 ^ 32) :
    start.toNat ≤ mmap.toNat ∧ mmap.toNat < stop.toNat := by
  induction h with
  | first hlt => exact ⟨Nat.le_refl _, UInt64.lt_iff_toNat_lt.mp hlt⟩
  | later hlt _ ih =>
    rw [UInt64.lt_iff_toNat_lt] at hlt
    have hnext := toNat_nextEntry memory (Nat.lt_trans hlt hstop)
    omega

/-- The region that is added for an entry. -/
def regionOf (entry : MemoryMapEntry) : List (UInt64 × UInt64) :=
  if entry.type = MULTIBOOT_MEMORY_AVAILABLE then [(entry.addr, entry.addr + entry.len)] else []

/-- A loop that adds the regions of the available entries, and reads of an entry
its type and other fields at most. -/
structure MapLoop.Regular (loop : MapLoop) : Prop where
  freeRegions : ∀ walk entry, (loop.visit walk entry).freeRegions = walk.freeRegions ++ regionOf entry
  loadType_mem : ∀ mmap entry, loadType mmap ∈ loop.loads mmap entry
  loads_fields : ∀ mmap entry, ∀ load ∈ loop.loads mmap entry,
    load ∈ [loadSize mmap, loadAddr mmap, loadLen mmap, loadType mmap]

theorem capacityLoop_regular : capacityLoop.Regular where
  freeRegions walk entry := by
    simp only [capacityLoop, MemoryWalk.visit, regionOf]
    split
    · rfl
    · split
      · exact (List.append_nil _).symm
      · split <;> exact (List.append_nil _).symm
  loadType_mem mmap entry := by
    simp only [capacityLoop]
    split_ifs <;> exact List.mem_cons_self
  loads_fields mmap entry := by
    simp only [capacityLoop]
    split_ifs <;> simp

theorem detectLoop_regular : detectLoop.Regular where
  freeRegions walk entry := by
    simp only [detectLoop, regionOf]
    split
    · rfl
    · exact (List.append_nil _).symm
  loadType_mem mmap entry := by
    simp only [detectLoop]
    split_ifs <;> exact List.mem_cons_self
  loads_fields mmap entry := by
    simp only [detectLoop]
    split_ifs <;> simp

theorem loads_foldl_round (addresses : List UInt64) (logged : LoggedWalk) :
    (addresses.foldl (loop.round memory) logged).loads =
      logged.loads ++ addresses.flatMap fun mmap => loop.loads mmap (entryAt memory mmap) := by
  induction addresses generalizing logged with
  | nil => exact (List.append_nil _).symm
  | cons mmap addresses ih => rw [List.foldl_cons, ih, List.flatMap_cons, ← List.append_assoc]; rfl

theorem MapLoop.Regular.freeRegions_foldl_round (h : loop.Regular) (addresses : List UInt64)
    (logged : LoggedWalk) :
    (addresses.foldl (loop.round memory) logged).walk.freeRegions =
      logged.walk.freeRegions ++ addresses.flatMap fun mmap => regionOf (entryAt memory mmap) := by
  induction addresses generalizing logged with
  | nil => exact (List.append_nil _).symm
  | cons mmap addresses ih =>
    rw [List.foldl_cons, ih, List.flatMap_cons, ← List.append_assoc, ← h.freeRegions]
    rfl

/-- A region that does not wrap is one that ends at or behind its beginning. -/
theorem le_add_iff (addr len : UInt64) : addr ≤ addr + len ↔ addr.toNat + len.toNat < 2 ^ 64 := by
  have haddr := addr.toNat_lt
  have hlen := len.toNat_lt
  rw [UInt64.le_iff_toNat_le, UInt64.toNat_add]
  omega

theorem Info.toNat_stop (mbi : Info) :
    mbi.stop.toNat = (mbi.mmap_addr.toNat + mbi.mmap_length.toNat) % 2 ^ 32 := by
  rw [stop, UInt32.toNat_toUInt64, UInt32.toNat_add]

/-- An entry lies before the end of the map. Where the end wraps there is none. -/
theorem Info.entry_bounds {mbi : Info} (h : BeginsAt memory mbi.stop mbi.mmap_addr.toUInt64 mmap) :
    mbi.mmap_addr.toNat ≤ mmap.toNat ∧ mmap.toNat < mbi.mmap_addr.toNat + mbi.mmap_length.toNat ∧
      mmap.toNat < 2 ^ 32 := by
  have hstop := mbi.toNat_stop
  have hlength := mbi.mmap_length.toNat_lt
  obtain ⟨hfirst, hlast⟩ := h.bounds (by omega)
  rw [UInt32.toNat_toUInt64] at hfirst
  omega

/-- The loop ends, and its reads and regions are those of the entries. -/
theorem MapLoop.Regular.run_eq (h : loop.Regular) (mbi : Info) (memory : UInt64 → UInt8) :
    ∃ (logged : LoggedWalk) (addresses : List UInt64), loop.run mbi memory = some logged ∧
      (∀ mmap, mmap ∈ addresses ↔ BeginsAt memory mbi.stop mbi.mmap_addr.toUInt64 mmap) ∧
      logged.loads = (addresses.flatMap fun mmap => loop.loads mmap (entryAt memory mmap)) ∧
      logged.walk.freeRegions = addresses.flatMap fun mmap => regionOf (entryAt memory mmap) := by
  have hstop := mbi.toNat_stop
  have hends : (visited memory mbi.stop (2 ^ 64) mbi.mmap_addr.toUInt64).isSome :=
    visited_isSome (by omega) (by omega)
  obtain ⟨addresses, haddresses⟩ := Option.isSome_iff_exists.mp hends
  refine ⟨_, addresses, ?_, mem_visited haddresses, loads_foldl_round addresses {},
    h.freeRegions_foldl_round addresses {}⟩
  rw [MapLoop.run, runFrom_eq, haddresses, Option.map_some]

/-- The walk of the boot functions' model is the first loop's, and ends. -/
theorem Info.walk_eq (mbi : Info) (memory : UInt64 → UInt8) :
    mbi.walk memory = (capacityLoop.run mbi memory).map LoggedWalk.walk :=
  walkMemoryMap_eq {}

theorem Info.walk_isSome (mbi : Info) (memory : UInt64 → UInt8) : (mbi.walk memory).isSome := by
  obtain ⟨_, _, hrun, _⟩ := capacityLoop_regular.run_eq mbi memory
  rw [mbi.walk_eq, hrun]
  rfl

/-- A field of an entry lies in the map where the whole entry does. -/
theorem load_bounds {load : Load} (hload : load ∈ [loadSize mmap, loadAddr mmap, loadLen mmap, loadType mmap])
    (hmmap : mmap.toNat < 2 ^ 32) :
    mmap.toNat ≤ load.address.toNat ∧ load.address.toNat + load.size ≤ mmap.toNat + 24 := by
  have hoffset (offset : UInt64) (h : offset.toNat < 2 ^ 32) :
      (mmap + offset).toNat = mmap.toNat + offset.toNat := by
    rw [UInt64.toNat_add]
    omega
  simp only [List.mem_cons, List.not_mem_nil, or_false] at hload
  rcases hload with rfl | rfl | rfl | rfl
  · exact ⟨Nat.le_refl _, by simp [loadSize]⟩
  · rw [loadAddr, hoffset 4 (by decide)]
    exact ⟨Nat.le_add_right _ _, by simp⟩
  · rw [loadLen, hoffset 12 (by decide)]
    exact ⟨Nat.le_add_right _ _, by simp⟩
  · rw [loadType, hoffset 20 (by decide)]
    exact ⟨Nat.le_add_right _ _, by simp⟩

/-- A loop over the map reads no field outside of it and adds no region that
wraps exactly where the map is well formed. -/
theorem MapLoop.Regular.safe_iff (h : loop.Regular) (mbi : Info) (memory : UInt64 → UInt8) :
    loop.Safe mbi memory ↔ mbi.WellFormed memory := by
  obtain ⟨logged, addresses, hrun, hmem, hloads, hregions⟩ := h.run_eq mbi memory
  simp only [MapLoop.Safe, hrun, Option.some.injEq, exists_eq_left', hloads, hregions, List.mem_flatMap, hmem]
  constructor
  · rintro ⟨hreads, hordered⟩ mmap hbegins
    obtain ⟨_, _, hsmall⟩ := Info.entry_bounds hbegins
    refine ⟨?_, fun havailable => ?_⟩
    · have htype := (hreads (loadType mmap) ⟨mmap, hbegins, h.loadType_mem _ _⟩).2
      rw [loadType, UInt64.toNat_add] at htype
      simp at htype
      omega
    · rw [← le_add_iff]
      refine hordered (_, _) ⟨mmap, hbegins, ?_⟩
      rw [regionOf, if_pos havailable]
      exact List.mem_singleton_self _
  · intro hwell
    constructor
    · rintro load ⟨mmap, hbegins, hload⟩
      obtain ⟨hfirst, _, hsmall⟩ := Info.entry_bounds hbegins
      obtain ⟨hlow, hhigh⟩ := load_bounds (h.loads_fields _ _ load hload) hsmall
      have hfits := (hwell mmap hbegins).1
      omega
    · rintro region ⟨mmap, hbegins, hregion⟩
      unfold regionOf at hregion
      split at hregion
      · next havailable =>
        rw [List.mem_singleton.mp hregion, le_add_iff]
        exact (hwell mmap hbegins).2 havailable
      · cases hregion

/-- Both loops end; and they read inside of the map only, and add no region that
ends before it begins, exactly where the map is well formed. -/
theorem loops_safe_iff (mbi : Info) (memory : UInt64 → UInt8) :
    (capacityLoop.run mbi memory).isSome ∧ (detectLoop.run mbi memory).isSome ∧
      (capacityLoop.Safe mbi memory ↔ mbi.WellFormed memory) ∧
      (detectLoop.Safe mbi memory ↔ mbi.WellFormed memory) := by
  obtain ⟨_, _, hcapacity, _⟩ := capacityLoop_regular.run_eq mbi memory
  obtain ⟨_, _, hdetect, _⟩ := detectLoop_regular.run_eq mbi memory
  exact ⟨hcapacity ▸ rfl, hdetect ▸ rfl, capacityLoop_regular.safe_iff mbi memory,
    detectLoop_regular.safe_iff mbi memory⟩

/-- A map of 4 bytes, in which an entry begins. -/
theorem truncated_entry_read :
    ¬ capacityLoop.Safe ⟨MULTIBOOT_INFO_MEMORY ||| MULTIBOOT_INFO_MEM_MAP, 0, 0x1000, 4⟩ (fun _ => 0) := by
  rw [capacityLoop_regular.safe_iff]
  intro hwell
  have hfits := (hwell 0x1000 (.first (by decide))).1
  exact absurd hfits (by decide)

end Kernel.Multiboot
