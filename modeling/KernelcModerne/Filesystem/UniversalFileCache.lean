import KernelcModerne.Lib.WriteLog

open WriteLog

namespace Kernel

inductive FileSystemFormat where
  | NTFS | FAT32 | EXT4 | EXFAT | APFS | BTRFS | HFS_PLUS | XFS | ZFS | UFS
  | REFS | F2FS | NILFS | JFS | MINIX | HAMMER | AFS | GFS2 | OCFS2 | RAW
  deriving DecidableEq

namespace UniversalFileCache

abbrev Data := List UInt8

/-- A write, as the coalescer queues it. -/
abbrev Write := WriteLog.Write String UInt8

/-- `LRUCache` or `ARCache`: `get` answers an entry that is stored under the
hash, if one, and stores none. -/
structure EntryCache (Hash Entry : Type) where
  Cache : Type
  empty : Cache
  get : Cache → Hash → Cache × Option Entry
  Stored : Cache → Hash → Entry → Prop
  not_stored_empty : ∀ {hash entry}, ¬ Stored empty hash entry
  stored_of_get : ∀ {cache hash entry}, (get cache hash).2 = some entry → Stored cache hash entry
  stored_get : ∀ {cache hash hash' entry}, Stored (get cache hash).1 hash' entry → Stored cache hash' entry

structure CacheLevel (Lru Arc : Type) where
  lruCache : Lru
  arcCache : Arc

/-- An entry that one of the levels stores under the hash. -/
def Stored {Hash Entry : Type} {lru arc : EntryCache Hash Entry}
    (cacheLevels : List (CacheLevel lru.Cache arc.Cache)) (hash : Hash) (entry : Entry) : Prop :=
  ∃ level ∈ cacheLevels, lru.Stored level.lruCache hash entry ∨ arc.Stored level.arcCache hash entry

/-- The hasher, the caches, the handlers and the coalescer. `files` shows the
disk, and `chunkBytes` and `image` show which bytes of its file a chunk read
from disk or a cache entry has.

Handlers read and write the disk faithfully, and a write that fails writes
nothing. An entry has bytes of the chunk it is made from, and retrieving a range
fails unless the entry has all of it. Updating the entry of a written file
gives it the bytes written. The optimized writes come to the same as the
queued ones. -/
structure Services where
  Hash : Type
  Chunk : Type
  Entry : Type
  Disk : Type
  lru : EntryCache Hash Entry
  arc : EntryCache Hash Entry
  computeHash : String → Hash
  detectFormat : String → FileSystemFormat
  files : Disk → String → Bytes UInt8
  chunkBytes : Chunk → Bytes UInt8
  image : Entry → Bytes UInt8
  read : FileSystemFormat → Disk → String → Nat → Nat → Option Chunk
  read_faithful : ∀ {format disk path offset size chunk},
    read format disk path offset size = some chunk → Within (chunkBytes chunk) (files disk path)
  write : FileSystemFormat → Disk → Write → Disk × Bool
  write_faithful : ∀ {format disk w}, (write format disk w).2 = true →
    ∀ path, Within (w.apply (files disk) path) (files (write format disk w).1 path)
  write_failed : ∀ {format disk w}, (write format disk w).2 = false →
    ∀ path, Within (files disk path) (files (write format disk w).1 path)
  retrieveData : Entry → Nat → Nat → Except String Data
  retrieveData_image : ∀ {entry offset size data}, retrieveData entry offset size = .ok data →
    data.length = size ∧ ∀ i < size, image entry (offset + i) = data[i]?
  createOptimizedCacheEntry : Chunk → FileSystemFormat → Entry
  image_createOptimizedCacheEntry : ∀ {chunk format},
    Within (image (createOptimizedCacheEntry chunk format)) (chunkBytes chunk)
  /-- The second result is what the moved entry is afterwards, if not null. -/
  insertIntoCache : List (CacheLevel lru.Cache arc.Cache) → Hash → Entry →
    List (CacheLevel lru.Cache arc.Cache) × Option Entry
  stored_insertIntoCache : ∀ {cacheLevels hash entry hash' entry'},
    Stored (insertIntoCache cacheLevels hash entry).1 hash' entry' →
      (hash' = hash ∧ entry' = entry) ∨ Stored cacheLevels hash' entry'
  image_moved : ∀ {cacheLevels hash entry moved},
    (insertIntoCache cacheLevels hash entry).2 = some moved → Within (image moved) (image entry)
  updateCacheEntry : List (CacheLevel lru.Cache arc.Cache) → Write → List (CacheLevel lru.Cache arc.Cache)
  stored_updateCacheEntry : ∀ {cacheLevels w hash entry'},
    Stored (updateCacheEntry cacheLevels w) hash entry' → ∃ entry, Stored cacheLevels hash entry ∧
      (hash = computeHash w.path → Within (image entry') (w.onto (image entry))) ∧
      (hash ≠ computeHash w.path → Within (image entry') (image entry))
  shouldCompress : Data → Bool
  compress : Data → Data
  getOptimizedWrites : List Write → List Write
  overlay_getOptimizedWrites : ∀ writes files,
    overlay (getOptimizedWrites writes) files = overlay writes files
  path_getOptimizedWrites : ∀ {writes w}, w ∈ getOptimizedWrites writes → ∃ w' ∈ writes, w'.path = w.path

end UniversalFileCache

open UniversalFileCache in
/-- `writeCoalescer` is the list of the queued writes. -/
structure UniversalFileCache (services : Services) where
  cacheLevels : List (CacheLevel services.lru.Cache services.arc.Cache)
  writeCoalescer : List Write
  hits : UInt64
  misses : UInt64

namespace UniversalFileCache

variable {services : Services}

def constructed (services : Services) : UniversalFileCache services where
  cacheLevels := List.replicate 3 ⟨services.lru.empty, services.arc.empty⟩
  writeCoalescer := []
  hits := 0
  misses := 0

/-- The caches of all levels in turn, up to one that has the hash. -/
def findEntry (hash : services.Hash) : List (CacheLevel services.lru.Cache services.arc.Cache) →
    List (CacheLevel services.lru.Cache services.arc.Cache) × Option services.Entry
  | [] => ([], none)
  | level :: rest =>
    match services.lru.get level.lruCache hash with
    | (lruCache, some entry) => ({ level with lruCache } :: rest, some entry)
    | (lruCache, none) =>
      match services.arc.get level.arcCache hash with
      | (arcCache, some entry) => ({ lruCache, arcCache } :: rest, some entry)
      | (arcCache, none) =>
        let (rest, found) := findEntry hash rest
        ({ lruCache, arcCache } :: rest, found)

def updateStats (self : UniversalFileCache services) (hit : Bool) : UniversalFileCache services :=
  if hit then { self with hits := self.hits + 1 } else { self with misses := self.misses + 1 }

/-- `read`, which has no result when it reads through a null entry. -/
def read (self : UniversalFileCache services) (disk : services.Disk) (path : String) (offset size : Nat) :
    Option (UniversalFileCache services × Except String Data) :=
  let hash := services.computeHash path
  match findEntry hash self.cacheLevels with
  | (cacheLevels, some entry) =>
    some ({ self with cacheLevels }.updateStats true, services.retrieveData entry offset size)
  | (cacheLevels, none) =>
    let format := services.detectFormat path
    match services.read format disk path offset size with
    | none => some ({ self with cacheLevels }.updateStats false, .error "Read failed")
    | some data =>
      let entry := services.createOptimizedCacheEntry data format
      let (cacheLevels, moved) := services.insertIntoCache cacheLevels hash entry
      moved.map fun entry =>
        ({ self with cacheLevels }.updateStats false, services.retrieveData entry offset size)

/-- The loop of `flushWrites`. -/
def writeAll (services : Services) : List Write → List (CacheLevel services.lru.Cache services.arc.Cache) →
    services.Disk → List (CacheLevel services.lru.Cache services.arc.Cache) × services.Disk × Bool
  | [], cacheLevels, disk => (cacheLevels, disk, true)
  | write :: writes, cacheLevels, disk =>
    match services.write (services.detectFormat write.path) disk write with
    | (disk, false) => (cacheLevels, disk, false)
    | (disk, true) => writeAll services writes (services.updateCacheEntry cacheLevels write) disk

def flushWrites (self : UniversalFileCache services) (disk : services.Disk) :
    UniversalFileCache services × services.Disk × Bool :=
  let writes := services.getOptimizedWrites self.writeCoalescer
  match writeAll services writes self.cacheLevels disk with
  | (cacheLevels, disk, false) => ({ self with cacheLevels }, disk, false)
  | (cacheLevels, disk, true) => ({ self with cacheLevels, writeCoalescer := [] }, disk, true)

/-- What `write` queues for `data`. -/
def queued (services : Services) (data : Data) : Data :=
  if services.shouldCompress data then services.compress data else data

/-- `write`, where `shouldFlush` is the answer of the coalescer. -/
def write (self : UniversalFileCache services) (disk : services.Disk) (shouldFlush : Bool) (path : String)
    (data : Data) (offset : Nat) : UniversalFileCache services × services.Disk × Bool :=
  let self := { self with
    writeCoalescer := self.writeCoalescer ++ [⟨path, queued services data, offset⟩] }
  if shouldFlush then self.flushWrites disk else (self, disk, true)

/-- A cache with one entry for each hash. -/
def mapCache : EntryCache String (Bytes UInt8) where
  Cache := String → Option (Bytes UInt8)
  empty _ := none
  get cache hash := (cache, cache hash)
  Stored cache hash entry := cache hash = some entry
  not_stored_empty := nofun
  stored_of_get h := h
  stored_get h := h

abbrev MapLevel := CacheLevel (String → Option (Bytes UInt8)) (String → Option (Bytes UInt8))

def MapLevel.Stored (level : MapLevel) (hash : String) (entry : Bytes UInt8) : Prop :=
  level.lruCache hash = some entry ∨ level.arcCache hash = some entry

/-- The bytes of a range, if the entry has them all. -/
def retrieve (entry : Bytes UInt8) (offset size : Nat) : Except String Data :=
  if ∀ i < size, (entry (offset + i)).isSome then .ok ((List.range size).map fun i => (entry (offset + i)).getD 0)
  else .error "Incomplete entry"

theorem retrieve_spec {entry : Bytes UInt8} {offset size : Nat} {data : Data}
    (h : retrieve entry offset size = .ok data) :
    data.length = size ∧ ∀ i < size, entry (offset + i) = data[i]? := by
  unfold retrieve at h
  split at h
  case isTrue hall =>
    obtain rfl := Except.ok.inj h
    refine ⟨by simp, fun i hi => ?_⟩
    obtain ⟨byte, hbyte⟩ := Option.isSome_iff_exists.mp (hall i hi)
    simp [hi, hbyte]
  case isFalse => cases h

/-- What a read has of a file. -/
def chunkOf (file : Bytes UInt8) (offset size : Nat) : Bytes UInt8 := fun position =>
  if offset ≤ position ∧ position < offset + size then file position else none

theorem chunkOf_within (file : Bytes UInt8) (offset size : Nat) : Within (chunkOf file offset size) file := by
  intro position byte h
  unfold chunkOf at h
  split at h
  · exact h
  · cases h

def insertFirst (cacheLevels : List MapLevel) (hash : String) (entry : Bytes UInt8) : List MapLevel :=
  cacheLevels.modifyHead fun level => { level with lruCache := Function.update level.lruCache hash (some entry) }

theorem stored_insertFirst {cacheLevels : List MapLevel} {hash hash' : String} {entry entry' : Bytes UInt8}
    (h : ∃ level ∈ insertFirst cacheLevels hash entry, level.Stored hash' entry') :
    (hash' = hash ∧ entry' = entry) ∨ ∃ level ∈ cacheLevels, level.Stored hash' entry' := by
  cases cacheLevels with
  | nil => exact .inr h
  | cons first rest =>
    obtain ⟨level, hlevel, hstored⟩ := h
    cases List.mem_cons.mp hlevel with
    | inr hrest => exact .inr ⟨level, List.mem_cons_of_mem _ hrest, hstored⟩
    | inl heq =>
      subst heq
      cases hstored with
      | inr harc => exact .inr ⟨first, List.mem_cons_self, .inr harc⟩
      | inl hlru =>
        by_cases hhash : hash' = hash
        · subst hhash
          simp only [Function.update_self] at hlru
          exact .inl ⟨rfl, (Option.some.inj hlru).symm⟩
        · simp only [Function.update_of_ne hhash] at hlru
          exact .inr ⟨first, List.mem_cons_self, .inl hlru⟩

/-- The entry of a written file, with the bytes written. -/
def patch (cache : String → Option (Bytes UInt8)) (w : Write) : String → Option (Bytes UInt8) :=
  Function.update cache w.path ((cache w.path).map w.onto)

theorem patch_eq_some {cache : String → Option (Bytes UInt8)} {w : Write} {hash : String} {entry' : Bytes UInt8}
    (h : patch cache w hash = some entry') : ∃ entry, cache hash = some entry ∧
      (hash = w.path → Within entry' (w.onto entry)) ∧ (hash ≠ w.path → Within entry' entry) := by
  by_cases hhash : hash = w.path
  · subst hhash
    rw [patch, Function.update_self] at h
    obtain ⟨entry, hentry, rfl⟩ := Option.map_eq_some_iff.mp h
    exact ⟨entry, hentry, fun _ => Within.refl _, fun hne => absurd rfl hne⟩
  · rw [patch, Function.update_of_ne hhash] at h
    exact ⟨entry', h, fun heq => absurd heq hhash, fun _ => Within.refl _⟩

def patchAll (cacheLevels : List MapLevel) (w : Write) : List MapLevel :=
  cacheLevels.map fun level => ⟨patch level.lruCache w, patch level.arcCache w⟩

theorem stored_patchAll {cacheLevels : List MapLevel} {w : Write} {hash : String} {entry' : Bytes UInt8}
    (h : ∃ level ∈ patchAll cacheLevels w, level.Stored hash entry') :
    ∃ entry, (∃ level ∈ cacheLevels, level.Stored hash entry) ∧
      (hash = w.path → Within entry' (w.onto entry)) ∧ (hash ≠ w.path → Within entry' entry) := by
  obtain ⟨_, hlevel, hstored⟩ := h
  obtain ⟨level, hmem, rfl⟩ := List.mem_map.mp hlevel
  cases hstored with
  | inl hlru =>
    obtain ⟨entry, hentry, hwithin⟩ := patch_eq_some hlru
    exact ⟨entry, ⟨level, hmem, .inl hentry⟩, hwithin⟩
  | inr harc =>
    obtain ⟨entry, hentry, hwithin⟩ := patch_eq_some harc
    exact ⟨entry, ⟨level, hmem, .inr hentry⟩, hwithin⟩

def inMemory : Services where
  Hash := String
  Chunk := Bytes UInt8
  Entry := Bytes UInt8
  Disk := String → Bytes UInt8
  lru := mapCache
  arc := mapCache
  computeHash := id
  detectFormat _ := .RAW
  files := id
  chunkBytes := id
  image := id
  read _ disk path offset size := some (chunkOf (disk path) offset size)
  read_faithful h := Option.some.inj h ▸ chunkOf_within _ _ _
  write _ disk w := (w.apply disk, true)
  write_faithful _ _ := Within.refl _
  write_failed := nofun
  retrieveData := retrieve
  retrieveData_image := retrieve_spec
  createOptimizedCacheEntry chunk _ := chunk
  image_createOptimizedCacheEntry := Within.refl _
  insertIntoCache cacheLevels hash entry := (insertFirst cacheLevels hash entry, some entry)
  stored_insertIntoCache h := stored_insertFirst h
  image_moved h := Option.some.inj h ▸ Within.refl _
  updateCacheEntry := patchAll
  stored_updateCacheEntry h := stored_patchAll h
  shouldCompress _ := false
  compress := id
  getOptimizedWrites := id
  overlay_getOptimizedWrites _ _ := rfl
  path_getOptimizedWrites h := ⟨_, h, rfl⟩

end UniversalFileCache

end Kernel
