import Mathlib.Data.Set.Function
import KernelcModerne.Lib.Transition
import KernelcModerne.Filesystem.UniversalFileCache

open Transition WriteLog

namespace Kernel.UniversalFileCache

variable {services : Services}

theorem stored_cons {Hash Entry : Type} {lru arc : EntryCache Hash Entry}
    {level : CacheLevel lru.Cache arc.Cache} {rest : List (CacheLevel lru.Cache arc.Cache)} {hash : Hash}
    {entry : Entry} : Stored (level :: rest) hash entry ↔
      (lru.Stored level.lruCache hash entry ∨ arc.Stored level.arcCache hash entry) ∨ Stored rest hash entry := by
  simp only [Stored, List.mem_cons, exists_eq_or_imp]

/-- A lookup finds an entry stored under the hash. -/
theorem stored_of_findEntry {hash : services.Hash}
    {cacheLevels : List (CacheLevel services.lru.Cache services.arc.Cache)} {entry : services.Entry}
    (h : (findEntry hash cacheLevels).2 = some entry) : Stored cacheLevels hash entry := by
  induction cacheLevels with
  | nil => cases h
  | cons level rest ih =>
    rw [stored_cons]
    rw [findEntry] at h
    cases hlru : services.lru.get level.lruCache hash with
    | mk lruCache found =>
      rw [hlru] at h
      cases found with
      | some found =>
        obtain rfl := Option.some.inj h
        exact .inl (.inl (services.lru.stored_of_get (by rw [hlru])))
      | none =>
        cases harc : services.arc.get level.arcCache hash with
        | mk arcCache found =>
          simp only [harc] at h
          cases found with
          | some found =>
            obtain rfl := Option.some.inj h
            exact .inl (.inr (services.arc.stored_of_get (by rw [harc])))
          | none => exact .inr (ih h)

/-- A lookup stores nothing. -/
theorem stored_findEntry {hash hash' : services.Hash}
    {cacheLevels : List (CacheLevel services.lru.Cache services.arc.Cache)} {entry : services.Entry}
    (h : Stored (findEntry hash cacheLevels).1 hash' entry) : Stored cacheLevels hash' entry := by
  induction cacheLevels with
  | nil => exact h
  | cons level rest ih =>
    have hlruGet := @services.lru.stored_get level.lruCache hash hash' entry
    have harcGet := @services.arc.stored_get level.arcCache hash hash' entry
    rw [findEntry] at h
    rw [stored_cons]
    cases hlru : services.lru.get level.lruCache hash with
    | mk lruCache found =>
      rw [hlru] at h hlruGet
      cases found with
      | some found => exact (stored_cons.mp h).imp_left (Or.imp_left hlruGet)
      | none =>
        cases harc : services.arc.get level.arcCache hash with
        | mk arcCache found =>
          rw [harc] at harcGet
          simp only [harc] at h
          cases found with
          | some found => exact (stored_cons.mp h).imp_left (Or.imp hlruGet harcGet)
          | none => exact (stored_cons.mp h).imp (Or.imp hlruGet harcGet) ih

/-- Each entry is stored under the hash of one of the files `paths`, and has
bytes of this file only. -/
def Coherent (paths : Set String) (cacheLevels : List (CacheLevel services.lru.Cache services.arc.Cache))
    (disk : services.Disk) : Prop :=
  ∀ hash entry, Stored cacheLevels hash entry →
    ∃ path ∈ paths, services.computeHash path = hash ∧ Within (services.image entry) (services.files disk path)

variable {paths : Set String} {cacheLevels : List (CacheLevel services.lru.Cache services.arc.Cache)}
  {disk : services.Disk}

theorem Coherent.mono (h : Coherent paths cacheLevels disk) {disk' : services.Disk}
    (hdisk : ∀ path, Within (services.files disk path) (services.files disk' path)) :
    Coherent paths cacheLevels disk' := by
  intro hash entry hstored
  obtain ⟨path, hpath, hhash, himage⟩ := h hash entry hstored
  exact ⟨path, hpath, hhash, himage.trans (hdisk path)⟩

/-- Data that is retrieved from an entry with bytes of a file has the bytes of the
file. -/
theorem retrieveData_eq {entry : services.Entry} {file : Bytes UInt8} (h : Within (services.image entry) file)
    {offset size : Nat} {data : Data} (hdata : services.retrieveData entry offset size = .ok data) {i : Nat}
    (hi : i < size) : data[i]? = file (offset + i) := by
  obtain ⟨hlength, hbytes⟩ := services.retrieveData_image hdata
  obtain ⟨byte, hbyte⟩ : ∃ byte, data[i]? = some byte := by
    rw [← hlength] at hi
    exact ⟨data[i], List.getElem?_eq_getElem hi⟩
  rw [hbyte, h (offset + i) byte ((hbytes i hi).trans hbyte)]

/-- A read delivers the bytes on the disk, and leaves the queue as it is. -/
theorem Coherent.read {self after : UniversalFileCache services} (h : Coherent paths self.cacheLevels disk)
    (hinj : Set.InjOn services.computeHash paths) {path : String} (hpath : path ∈ paths) {offset size : Nat}
    {result : Except String Data} (hread : self.read disk path offset size = some (after, result)) :
    Coherent paths after.cacheLevels disk ∧ after.writeCoalescer = self.writeCoalescer ∧
      ∀ data, result = .ok data → ∀ i < size, data[i]? = services.files disk path (offset + i) := by
  have hlookup : Coherent paths (findEntry (services.computeHash path) self.cacheLevels).1 disk :=
    fun hash entry hstored => h hash entry (stored_findEntry hstored)
  simp only [UniversalFileCache.read] at hread
  cases hfind : findEntry (services.computeHash path) self.cacheLevels with
  | mk cacheLevels found =>
    rw [hfind] at hread hlookup
    cases found with
    | some entry =>
      obtain ⟨rfl, rfl⟩ := Prod.mk.inj (Option.some.inj hread)
      obtain ⟨path', hpath', hhash, himage⟩ := h _ entry (stored_of_findEntry (by rw [hfind]))
      obtain rfl := hinj hpath' hpath hhash
      exact ⟨hlookup, rfl, fun data hdata i hi => retrieveData_eq himage hdata hi⟩
    | none =>
      cases hchunk : services.read (services.detectFormat path) disk path offset size with
      | none =>
        rw [hchunk] at hread
        obtain ⟨rfl, rfl⟩ := Prod.mk.inj (Option.some.inj hread)
        exact ⟨hlookup, rfl, nofun⟩
      | some chunk =>
        rw [hchunk] at hread
        obtain ⟨moved, hmoved, heq⟩ := Option.map_eq_some_iff.mp hread
        obtain ⟨rfl, rfl⟩ := Prod.mk.inj heq
        have himage : Within
            (services.image (services.createOptimizedCacheEntry chunk (services.detectFormat path)))
            (services.files disk path) :=
          services.image_createOptimizedCacheEntry.trans (services.read_faithful hchunk)
        refine ⟨fun hash entry hstored => ?_, rfl, fun data hdata i hi => ?_⟩
        · cases services.stored_insertIntoCache hstored with
          | inl hnew => exact ⟨path, hpath, hnew.1.symm, hnew.2 ▸ himage⟩
          | inr hold => exact hlookup hash entry hold
        · exact retrieveData_eq ((services.image_moved hmoved).trans himage) hdata hi

/-- A write that succeeds and the update of its entries go together. -/
theorem Coherent.updateCacheEntry (h : Coherent paths cacheLevels disk)
    (hinj : Set.InjOn services.computeHash paths) {w : Write} (hw : w.path ∈ paths) {disk' : services.Disk}
    (hdisk : ∀ path, Within (w.apply (services.files disk) path) (services.files disk' path)) :
    Coherent paths (services.updateCacheEntry cacheLevels w) disk' := by
  intro hash entry' hstored
  obtain ⟨entry, hentry, hsame, hother⟩ := services.stored_updateCacheEntry hstored
  obtain ⟨path, hpath, hhash, himage⟩ := h hash entry hentry
  refine ⟨path, hpath, hhash, ?_⟩
  by_cases heq : path = w.path
  · subst heq
    have honto := (hsame hhash.symm).trans (w.onto_mono himage)
    rw [← w.apply_path] at honto
    exact honto.trans (hdisk _)
  · have hne : hash ≠ services.computeHash w.path := by
      rintro rfl
      exact heq (hinj hpath hw hhash)
    have hkept := (hother hne).trans himage
    rw [← w.apply_of_ne (services.files disk) heq] at hkept
    exact hkept.trans (hdisk path)

/-- The loop writes a first part of the writes, and all of them if it succeeds. -/
theorem Coherent.writeAll {writes : List Write} (h : Coherent paths cacheLevels disk)
    (hinj : Set.InjOn services.computeHash paths) (hwrites : ∀ w ∈ writes, w.path ∈ paths)
    {cacheLevels' : List (CacheLevel services.lru.Cache services.arc.Cache)} {disk' : services.Disk} {ok : Bool}
    (hafter : writeAll services writes cacheLevels disk = (cacheLevels', disk', ok)) :
    Coherent paths cacheLevels' disk' ∧ ∃ first rest, writes = first ++ rest ∧ (ok = true → rest = []) ∧
      ∀ path, Within (overlay first (services.files disk) path) (services.files disk' path) := by
  induction writes generalizing cacheLevels disk with
  | nil =>
    obtain ⟨rfl, rfl, rfl⟩ := Prod.mk.inj hafter |>.imp_right Prod.mk.inj
    exact ⟨h, [], [], rfl, fun _ => rfl, fun path => Within.refl _⟩
  | cons w writes ih =>
    rw [UniversalFileCache.writeAll] at hafter
    have hfaithful := @services.write_faithful (services.detectFormat w.path) disk w
    have hfailed := @services.write_failed (services.detectFormat w.path) disk w
    cases hwrite : services.write (services.detectFormat w.path) disk w with
    | mk written succeeded =>
      rw [hwrite] at hafter hfaithful hfailed
      cases succeeded with
      | false =>
        obtain ⟨rfl, rfl, rfl⟩ := Prod.mk.inj hafter |>.imp_right Prod.mk.inj
        exact ⟨h.mono (hfailed rfl), [], w :: writes, rfl, nofun, hfailed rfl⟩
      | true =>
        have hupdated := h.updateCacheEntry hinj (hwrites w List.mem_cons_self) (hfaithful rfl)
        obtain ⟨hcoherent, first, rest, rfl, hall, hfirst⟩ :=
          ih hupdated (fun w' hw' => hwrites w' (List.mem_cons_of_mem w hw')) hafter
        refine ⟨hcoherent, w :: first, rest, rfl, hall, fun path => ?_⟩
        exact (overlay_mono first (hfaithful rfl) path).trans (hfirst path)

/-- A flush, even one that fails, loses no queued byte. -/
theorem Coherent.flushWrites (self : UniversalFileCache services) {after : UniversalFileCache services}
    (h : Coherent paths self.cacheLevels disk) (hinj : Set.InjOn services.computeHash paths)
    (hqueued : ∀ w ∈ self.writeCoalescer, w.path ∈ paths) {disk' : services.Disk} {ok : Bool}
    (hafter : self.flushWrites disk = (after, disk', ok)) :
    Coherent paths after.cacheLevels disk' ∧ (∀ w ∈ after.writeCoalescer, w.path ∈ paths) ∧
      ∀ path, Within (overlay self.writeCoalescer (services.files disk) path)
        (overlay after.writeCoalescer (services.files disk') path) := by
  have hwrites (w : Write) (hw : w ∈ services.getOptimizedWrites self.writeCoalescer) : w.path ∈ paths := by
    obtain ⟨w', hw', hpath⟩ := services.path_getOptimizedWrites hw
    exact hpath ▸ hqueued w' hw'
  simp only [UniversalFileCache.flushWrites] at hafter
  cases hall : UniversalFileCache.writeAll services (services.getOptimizedWrites self.writeCoalescer)
      self.cacheLevels disk with
  | mk cacheLevels rest =>
    obtain ⟨written, succeeded⟩ := rest
    obtain ⟨hcoherent, first, rest, hsplit, hrest, hfirst⟩ := h.writeAll hinj hwrites hall
    rw [hall] at hafter
    cases succeeded with
    | false =>
      obtain ⟨rfl, rfl, rfl⟩ := Prod.mk.inj hafter |>.imp_right Prod.mk.inj
      refine ⟨hcoherent, hqueued, fun path => ?_⟩
      -- the writes made so far are all still queued
      have hmono := overlay_mono (first ++ rest) hfirst path
      rw [overlay_overlay_append, ← hsplit, services.overlay_getOptimizedWrites,
        services.overlay_getOptimizedWrites] at hmono
      exact hmono
    | true =>
      obtain ⟨rfl, rfl, rfl⟩ := Prod.mk.inj hafter |>.imp_right Prod.mk.inj
      refine ⟨hcoherent, nofun, fun path => ?_⟩
      rw [hrest rfl, List.append_nil] at hsplit
      rw [← services.overlay_getOptimizedWrites, hsplit]
      exact hfirst path

inductive CacheOp where
  | read (path : String) (offset size : Nat)
  | write (path : String) (data : Data) (offset : Nat) (shouldFlush : Bool)

/-- The file that a call is about. -/
def CacheOp.path : CacheOp → String
  | .read path _ _ => path
  | .write path _ _ _ => path

/-- A cache and its disk, and for each file the bytes last written by a `write`
that returned true. -/
structure Client (services : Services) where
  cache : UniversalFileCache services
  disk : services.Disk
  written : String → Bytes UInt8

namespace Client

def constructed (services : Services) (disk : services.Disk) : Client services where
  cache := .constructed services
  disk := disk
  written _ _ := none

/-- A `write` that fails may have overwritten what was there before. -/
def step (client : Client services) : CacheOp → Option (Client services)
  | .read path offset size =>
    (client.cache.read client.disk path offset size).map fun (cache, _) => { client with cache }
  | .write path data offset shouldFlush =>
    match client.cache.write client.disk shouldFlush path data offset with
    | (cache, disk, true) =>
      some { cache, disk, written := Write.apply ⟨path, data, offset⟩ client.written }
    | (cache, disk, false) =>
      some { cache, disk, written := Write.forget ⟨path, data, offset⟩ client.written }

/-- A read that succeeds observes the bytes written. -/
def ReadsWrites (client : Client services) (op : CacheOp) (_ : Client services) : Prop :=
  match op with
  | .read path offset size => ∀ cache data,
    client.cache.read client.disk path offset size = some (cache, .ok data) →
      ∀ i < size, ∀ byte, client.written path (offset + i) = some byte → data[i]? = some byte
  | .write _ _ _ _ => True

/-- The queue has no byte of the range of a read that is not on the disk, and
what is written is not compressed. -/
def Flushed (client : Client services) : CacheOp → Prop
  | .read path offset size => ∀ i < size,
    overlay client.cache.writeCoalescer (services.files client.disk) path (offset + i) =
      services.files client.disk path (offset + i)
  | .write _ data _ _ => services.shouldCompress data = false

/-- No byte written is lost: it is queued or on the disk. -/
structure Sound (paths : Set String) (client : Client services) : Prop where
  queued : ∀ w ∈ client.cache.writeCoalescer, w.path ∈ paths
  coherent : Coherent paths client.cache.cacheLevels client.disk
  kept : ∀ path, Within (client.written path)
    (overlay client.cache.writeCoalescer (services.files client.disk) path)

theorem constructed_sound (paths : Set String) (disk : services.Disk) : Sound paths (constructed services disk) where
  queued := nofun
  coherent := by
    rintro hash entry ⟨level, hlevel, hstored⟩
    obtain rfl := List.eq_of_mem_replicate hlevel
    cases hstored with
    | inl hlru => exact absurd hlru services.lru.not_stored_empty
    | inr harc => exact absurd harc services.arc.not_stored_empty
  kept := nofun

variable {client after : Client services}

theorem Sound.step_read (h : client.Sound paths) (hinj : Set.InjOn services.computeHash paths) {path : String}
    (hpath : path ∈ paths) {offset size : Nat} (hstep : client.step (.read path offset size) = some after) :
    after.Sound paths := by
  obtain ⟨⟨cache, result⟩, hread, rfl⟩ := Option.map_eq_some_iff.mp hstep
  obtain ⟨hcoherent, hqueue, _⟩ := h.coherent.read hinj hpath hread
  refine ⟨?_, hcoherent, ?_⟩
  · rw [hqueue]
    exact h.queued
  · rw [hqueue]
    exact h.kept

/-- A read finds on the disk what was written there. -/
theorem Sound.readsWrites (h : client.Sound paths) (hinj : Set.InjOn services.computeHash paths) {op : CacheOp}
    (hpath : op.path ∈ paths) (hflushed : client.Flushed op) : client.ReadsWrites op after := by
  cases op with
  | write path data offset shouldFlush => trivial
  | read path offset size =>
    intro cache data hread i hi byte hbyte
    obtain ⟨_, _, hdata⟩ := h.coherent.read hinj hpath hread
    have honDisk := (hflushed i hi).symm.trans (h.kept path (offset + i) byte hbyte)
    exact (hdata data rfl i hi).trans honDisk

/-- Queueing a write keeps the entries and adds what it writes. -/
theorem Sound.queue (h : client.Sound paths) (w : Write) (hw : w.path ∈ paths) :
    Coherent paths client.cache.cacheLevels client.disk ∧
      (∀ w' ∈ client.cache.writeCoalescer ++ [w], w'.path ∈ paths) ∧
      ∀ path, Within (w.apply client.written path)
        (overlay (client.cache.writeCoalescer ++ [w]) (services.files client.disk) path) := by
  refine ⟨h.coherent, fun w' hw' => ?_, fun path => ?_⟩
  · cases List.mem_append.mp hw' with
    | inl hqueued => exact h.queued w' hqueued
    | inr hnew => exact List.mem_singleton.mp hnew ▸ hw
  · rw [overlay_concat]
    exact w.apply_mono h.kept path

theorem Sound.write (h : client.Sound paths) (hinj : Set.InjOn services.computeHash paths) {path : String}
    (hpath : path ∈ paths) {data : Data} (hplain : services.shouldCompress data = false) {offset : Nat}
    {shouldFlush ok : Bool} {cache : UniversalFileCache services} {disk : services.Disk}
    (hwrite : client.cache.write client.disk shouldFlush path data offset = (cache, disk, ok)) :
    Coherent paths cache.cacheLevels disk ∧ (∀ w ∈ cache.writeCoalescer, w.path ∈ paths) ∧
      ∀ path', Within (Write.apply ⟨path, data, offset⟩ client.written path')
        (overlay cache.writeCoalescer (services.files disk) path') := by
  obtain ⟨hcoherent, hqueued, hkept⟩ := h.queue ⟨path, data, offset⟩ hpath
  simp only [UniversalFileCache.write, UniversalFileCache.queued, hplain, Bool.false_eq_true, if_false] at hwrite
  cases shouldFlush with
  | false =>
    obtain ⟨rfl, rfl, _⟩ := Prod.mk.inj hwrite |>.imp_right Prod.mk.inj
    exact ⟨hcoherent, hqueued, hkept⟩
  | true =>
    simp only [if_true] at hwrite
    obtain ⟨hflushed, hleft, hnone⟩ := Coherent.flushWrites { client.cache with
      writeCoalescer := client.cache.writeCoalescer ++ [⟨path, data, offset⟩] } hcoherent hinj hqueued hwrite
    exact ⟨hflushed, hleft, fun path' => (hkept path').trans (hnone path')⟩

theorem Sound.step (h : client.Sound paths) (hinj : Set.InjOn services.computeHash paths) {op : CacheOp}
    (hpath : op.path ∈ paths) (hflushed : client.Flushed op) (hstep : client.step op = some after) :
    after.Sound paths := by
  cases op with
  | read path offset size => exact h.step_read hinj hpath hstep
  | write path data offset shouldFlush =>
    simp only [Client.step] at hstep
    cases hwrite : client.cache.write client.disk shouldFlush path data offset with
    | mk cache rest =>
      obtain ⟨disk, ok⟩ := rest
      obtain ⟨hcoherent, hqueued, hkept⟩ := h.write hinj hpath hflushed hwrite
      rw [hwrite] at hstep
      cases ok with
      | true =>
        obtain rfl := Option.some.inj hstep
        exact ⟨hqueued, hcoherent, hkept⟩
      | false =>
        obtain rfl := Option.some.inj hstep
        refine ⟨hqueued, hcoherent, fun path' => ?_⟩
        exact (Write.forget_within_apply _ (fun _ => Within.refl _) path').trans (hkept path')

/-- Where no two of the files have the same hash, reads observe the writes in
every run that compresses none of them and reads no byte that is queued but not
on the disk. -/
theorem along_readsWrites (disk : services.Disk) (ops : List CacheOp)
    (hhash : ∀ op ∈ ops, ∀ op' ∈ ops, services.computeHash op.path = services.computeHash op'.path →
      op.path = op'.path)
    (hflushed : Guarded step Flushed (constructed services disk) ops) :
    Along step ReadsWrites (constructed services disk) ops := by
  have hinj : Set.InjOn services.computeHash {path | ∃ op ∈ ops, op.path = path} := by
    rintro _ ⟨op, hop, rfl⟩ _ ⟨op', hop', rfl⟩ heq
    exact hhash op hop op' hop' heq
  have hguarded := guarded_and_of_forall (Q := (·.path ∈ {path | ∃ op ∈ ops, op.path = path}))
    (fun op hop => ⟨op, hop, rfl⟩) hflushed
  refine along_of_guarded (Sound {path | ∃ op ∈ ops, op.path = path}) ?_ ops (constructed_sound _ disk) hguarded
  intro client op after h hguard hstep
  exact ⟨h.readsWrites hinj hguard.1 hguard.2, h.step hinj hguard.1 hguard.2 hstep⟩

/-- Each file is one zero byte. -/
def zeroDisk : String → Bytes UInt8 := fun _ position => if position = 0 then some 0 else none

/-- A byte is cached, overwritten and read. -/
theorem along_readsWrites_flushed : Along step ReadsWrites (constructed inMemory zeroDisk)
    [.read "f" 0 1, .write "f" [7] 0 true, .read "f" 0 1] := by
  apply along_readsWrites
  · intro op hop op' hop' heq
    exact heq
  · intro read hread
    cases hread
    refine ⟨fun i hi => rfl, fun written hwrite => ?_⟩
    cases hwrite
    refine ⟨rfl, fun after hafter => ⟨fun i hi => rfl, trivial⟩⟩

/-- A byte that is written and waits in the queue is read as it was before. -/
theorem queued_byte_missed : ¬ Along step ReadsWrites (constructed inMemory zeroDisk)
    [.write "f" [1] 0 false, .read "f" 0 1] := by
  intro h
  obtain ⟨_, h⟩ := h _ rfl
  obtain ⟨hreads, _⟩ := h _ rfl
  exact absurd (hreads _ _ rfl 0 Nat.one_pos 1 rfl) (by decide)

end Client

end Kernel.UniversalFileCache
