import Mathlib.Algebra.BigOperators.Group.Finset.Basic
import Mathlib.Algebra.Order.Field.Rat
import KernelcModerne.Filesystem.CacheOptimization
import KernelcModerne.Filesystem.CompressionPass

namespace Kernel.FileSystem

structure PerformanceMetrics where
  read_ops : Nat
  write_ops : Nat
  cache_hits : Nat
  cache_misses : Nat
  total_bytes_read : Nat
  total_bytes_written : Nat
  total_bytes_compressed : Nat
  read_latencies : List Nat

namespace PerformanceMetrics

def constructed : PerformanceMetrics := ⟨0, 0, 0, 0, 0, 0, 0, []⟩

def recordRead (self : PerformanceMetrics) (bytes : Nat) : PerformanceMetrics :=
  { self with read_ops := self.read_ops + 1, total_bytes_read := self.total_bytes_read + bytes }

def recordCacheHit (self : PerformanceMetrics) : PerformanceMetrics :=
  { self with cache_hits := self.cache_hits + 1 }

def recordCacheMiss (self : PerformanceMetrics) : PerformanceMetrics :=
  { self with cache_misses := self.cache_misses + 1 }

def recordCompression (self : PerformanceMetrics) (bytes : Nat) : PerformanceMetrics :=
  { self with total_bytes_compressed := self.total_bytes_compressed + bytes }

def recordReadLatency (self : PerformanceMetrics) (latency : Nat) : PerformanceMetrics :=
  { self with read_latencies := self.read_latencies ++ [latency] }

/-- The ratio before it is rounded to a `double`. -/
def getCacheHitRatio (self : PerformanceMetrics) : ℚ :=
  let total := self.cache_hits + self.cache_misses
  if total ≠ 0 then self.cache_hits / total else 0

/-- MB for each of the `elapsed` units of time, before it is rounded; when none
has elapsed the quotient is no number. -/
def getThroughput (self : PerformanceMetrics) (elapsed : Nat) : Option ℚ :=
  if elapsed ≠ 0 then
    some ((self.total_bytes_read + self.total_bytes_written : ℚ) / elapsed / (1024 * 1024))
  else none

end PerformanceMetrics

/-- The file system with what it records about itself. -/
structure MeasuredFileSystem extends VirtualFileSystem where
  metrics : PerformanceMetrics

namespace MeasuredFileSystem

open VirtualFileSystem (CompressionAnswers MAP_THRESHOLD getFileSize inactiveFiles)

def constructed : MeasuredFileSystem where
  toVirtualFileSystem := .constructed
  metrics := .constructed

/-- `read` ends: the file system and the descriptor it leaves, and its result. -/
abbrev ReadEnd := Option (MeasuredFileSystem × FileDescriptor × ReadResult)

/-- The end of a branch of `read` that has recorded `metrics`. -/
def recording (metrics : PerformanceMetrics) (result : VirtualFileSystem.ReadEnd) : ReadEnd :=
  result.map fun (vfs, fd, out) => (⟨vfs, metrics⟩, fd, out)

def readRegion (self : MeasuredFileSystem) (answers : ReadAnswers) (latency : Nat)
    (mappedFile : MemoryMappedFile) (fd : FileDescriptor) (size : Nat) : ReadEnd :=
  let result := self.toVirtualFileSystem.readRegion answers mappedFile fd size
  if fd.position ≥ mappedFile.file_size then recording self.metrics result
  else recording (self.metrics.recordReadLatency latency) result

def readMapped (self : MeasuredFileSystem) (answers : ReadAnswers) (latency : Nat) (file : Data)
    (fd : FileDescriptor) (size : Nat) : ReadEnd :=
  match self.mappedFiles.lookup fd.path with
  | some mappedFile => self.readRegion answers latency mappedFile fd size
  | none =>
    let (mappedFile, mapped) := ({} : MemoryMappedFile).map answers file
    let self := { self with mappedFiles := self.mappedFiles.insert fd.path mappedFile }
    if !mapped then some (self, fd, ⟨-1, []⟩)
    else self.readRegion answers latency mappedFile fd size

def readBuffered (self : MeasuredFileSystem) (answers : ReadAnswers) (latency : Nat) (file : Data)
    (fd : FileDescriptor) (size : Nat) : ReadEnd :=
  let result := self.toVirtualFileSystem.readBuffered answers file fd size
  match self.bufferPool.acquire with
  | none => recording self.metrics result
  | some _ =>
    if !answers.fileOpens then recording self.metrics result
    else recording (self.metrics.recordReadLatency latency) result

/-- `read` of a file with the bytes `file`, which takes the time `latency`. -/
def read (self : MeasuredFileSystem) (promotion : Promotion) (answers : ReadAnswers) (latency : Nat)
    (file : Data) (fd : FileDescriptor) (size : Nat) : ReadEnd :=
  if size = 0 then some (self, fd, ⟨-1, []⟩)
  else
    let (multiLevelCache, cached) := self.multiLevelCache.get promotion fd.path answers.getTime
    match cached with
    | some cachedData =>
      let copySize := min size (Word64.sub cachedData.length fd.position)
      let metrics := (self.metrics.recordCacheHit.recordRead copySize).recordReadLatency latency
      recording metrics ({ self.toVirtualFileSystem with multiLevelCache }.readCached fd cachedData size)
    | none =>
      let self := { self with multiLevelCache, metrics := self.metrics.recordCacheMiss }
      if getFileSize answers file > MAP_THRESHOLD then
        self.readMapped answers latency file fd size
      else self.readBuffered answers latency file fd size

variable (zlib : Zlib)

/-- The body of the compression loop. -/
def compressFile (promotion : Promotion) (answers : CompressionAnswers) (cache : MultiLevelCache)
    (metrics : PerformanceMetrics) (path : String) : MultiLevelCache × PerformanceMetrics :=
  match cache.get promotion path answers.getTime with
  | (cache, some data) =>
    let compressed := CompressionManager.compress zlib answers.deflateInit data
    if compressed.length < data.length then
      (cache.put path compressed true answers.putTime,
        metrics.recordCompression (data.length - compressed.length))
    else (cache, metrics)
  | (cache, none) => (cache, metrics)

/-- The compression loop, from file number `i` on. -/
def compressFiles (promotion : Promotion) (answers : Nat → CompressionAnswers) (i : Nat) :
    List String → MultiLevelCache → PerformanceMetrics → MultiLevelCache × PerformanceMetrics
  | [], cache, metrics => (cache, metrics)
  | path :: rest, cache, metrics =>
    let (cache, metrics) := compressFile zlib promotion (answers i) cache metrics path
    compressFiles promotion answers (i + 1) rest cache metrics

def compressInactiveFiles (self : MeasuredFileSystem) (promotion : Promotion)
    (answers : Nat → CompressionAnswers) (now : Nat) : MeasuredFileSystem :=
  let (multiLevelCache, metrics) := compressFiles zlib promotion answers 0
    (inactiveFiles self.multiLevelCache now) self.multiLevelCache self.metrics
  { self with multiLevelCache, metrics }

def TARGET_THROUGHPUT : ℚ := 100

/-- `collectAndAnalyzeMetrics`, when `elapsed` units of time have passed since
the start; without the text that it logs. -/
def collectAndAnalyzeMetrics (self : MeasuredFileSystem) (elapsed : Nat) : Option MeasuredFileSystem :=
  let multiLevelCache := if self.metrics.getCacheHitRatio < 1 / 2 then
    self.multiLevelCache.expandLevel 0 (1024 * 1024) else some self.multiLevelCache
  let bufferPool := if ∃ throughput ∈ self.metrics.getThroughput elapsed, throughput < TARGET_THROUGHPUT then
    self.bufferPool.expand 64 else self.bufferPool
  multiLevelCache.map fun multiLevelCache => { self with multiLevelCache, bufferPool }

/-- What readers and the background threads do, with what the code outside
decides meanwhile. -/
inductive Op where
  | read (promotion : Promotion) (answers : ReadAnswers) (latency : Nat) (file : Data)
      (fd : FileDescriptor) (size : UInt64)
  | compressInactiveFiles (promotion : Promotion) (answers : Nat → CompressionAnswers) (now : Nat)
  | optimizeCache (order : EvictionOrder) (now : Nat)
  | collectAndAnalyzeMetrics (elapsed : Nat)

def step (self : MeasuredFileSystem) : Op → Option MeasuredFileSystem
  | .read promotion answers latency file fd size =>
    (self.read promotion answers latency file fd size.toNat).map Prod.fst
  | .compressInactiveFiles promotion answers now =>
    some (self.compressInactiveFiles zlib promotion answers now)
  | .optimizeCache order now =>
    (self.multiLevelCache.optimizeCache order now).map fun multiLevelCache => { self with multiLevelCache }
  | .collectAndAnalyzeMetrics elapsed => self.collectAndAnalyzeMetrics elapsed

/-- A call records the time it took, unless it fails or finds a mapped file at
its end. -/
def Timed (cached mapped : Bool) (returned : Int) : Prop :=
  cached = true ∨ 0 < returned ∨ (returned = 0 ∧ mapped = false)

instance (cached mapped : Bool) (returned : Int) : Decidable (Timed cached mapped returned) :=
  inferInstanceAs (Decidable (_ ∨ _ ∨ _))

/-- What a call records that returns `returned`. -/
def recorded (metrics : PerformanceMetrics) (cached mapped : Bool) (returned : Int) (latency : Nat) :
    PerformanceMetrics :=
  let counted := if cached then metrics.recordCacheHit.recordRead returned.toNat
    else metrics.recordCacheMiss
  if Timed cached mapped returned then counted.recordReadLatency latency else counted

/-- A call that ends as the plain one does and leaves what `metrics` says. -/
def Measures (metrics : ReadResult → PerformanceMetrics) (result : ReadEnd)
    (plain : VirtualFileSystem.ReadEnd) : Prop :=
  result = plain.map fun (vfs, fd, out) => (⟨vfs, metrics out⟩, fd, out)

theorem measures_recording {metrics : PerformanceMetrics} {expected : ReadResult → PerformanceMetrics}
    {plain : VirtualFileSystem.ReadEnd}
    (h : ∀ vfs fd out, plain = some (vfs, fd, out) → expected out = metrics) :
    Measures expected (recording metrics plain) plain := by
  unfold Measures recording
  cases plain with
  | none => rfl
  | some ended =>
    obtain ⟨vfs, fd, out⟩ := ended
    simp only [Option.map_some, h vfs fd out rfl]

variable {self : MeasuredFileSystem} {answers : ReadAnswers} {file : Data} {fd : FileDescriptor} {size : Nat}

theorem readRegion_measures (latency : Nat) (mappedFile : MemoryMappedFile) (hsize : 0 < size) :
    Measures
      (fun out => if Timed false true out.returned then self.metrics.recordReadLatency latency else self.metrics)
      (self.readRegion answers latency mappedFile fd size)
      (self.toVirtualFileSystem.readRegion answers mappedFile fd size) := by
  unfold readRegion
  by_cases hend : fd.position ≥ mappedFile.file_size
  · simp only [if_pos hend]
    apply measures_recording
    intro vfs fd' out hplain
    rw [VirtualFileSystem.readRegion, if_pos hend] at hplain
    obtain ⟨_, _, rfl⟩ := Prod.mk.inj (Option.some.inj hplain) |>.imp_right Prod.mk.inj
    exact if_neg (by decide)
  · simp only [if_neg hend]
    apply measures_recording
    intro vfs fd' out hplain
    rw [VirtualFileSystem.readRegion, if_neg hend] at hplain
    obtain ⟨mappedData, _, hplain⟩ := Option.bind_eq_some_iff.mp hplain
    obtain ⟨copied, _, hplain⟩ := Option.bind_eq_some_iff.mp hplain
    obtain ⟨_, _, rfl⟩ := Prod.mk.inj (Option.some.inj hplain) |>.imp_right Prod.mk.inj
    refine if_pos (.inr (.inl ?_))
    simp only
    omega

theorem readMapped_measures (latency : Nat) (hsize : 0 < size) :
    Measures
      (fun out => if Timed false true out.returned then self.metrics.recordReadLatency latency else self.metrics)
      (self.readMapped answers latency file fd size)
      (self.toVirtualFileSystem.readMapped answers file fd size) := by
  unfold readMapped VirtualFileSystem.readMapped
  cases self.mappedFiles.lookup fd.path with
  | some mappedFile => exact readRegion_measures latency mappedFile hsize
  | none =>
    cases hmap : ({} : MemoryMappedFile).map answers file with
    | mk mappedFile mapped =>
      cases mapped with
      | true => exact readRegion_measures latency mappedFile hsize
      | false => rfl

theorem readBuffered_measures (latency : Nat) :
    Measures
      (fun out => if Timed false false out.returned then self.metrics.recordReadLatency latency else self.metrics)
      (self.readBuffered answers latency file fd size)
      (self.toVirtualFileSystem.readBuffered answers file fd size) := by
  unfold readBuffered
  cases hacquire : self.bufferPool.acquire with
  | none =>
    apply measures_recording
    intro vfs fd' out hplain
    simp only [VirtualFileSystem.readBuffered, hacquire] at hplain
    obtain ⟨_, _, rfl⟩ := Prod.mk.inj (Option.some.inj hplain) |>.imp_right Prod.mk.inj
    exact if_neg (by decide)
  | some acquired =>
    cases hopens : answers.fileOpens with
    | false =>
      apply measures_recording
      intro vfs fd' out hplain
      simp only [VirtualFileSystem.readBuffered, hacquire, hopens] at hplain
      obtain ⟨_, _, rfl⟩ := Prod.mk.inj (Option.some.inj hplain) |>.imp_right Prod.mk.inj
      exact if_neg (by decide)
    | true =>
      apply measures_recording
      intro vfs fd' out hplain
      simp only [VirtualFileSystem.readBuffered, hacquire, hopens] at hplain
      have hreturned : 0 ≤ out.returned := by
        by_cases hbytes : ((file.drop fd.position).take BufferPool.BUFFER_SIZE).length > 0
        · simp only [hbytes, if_true] at hplain
          obtain ⟨_, _, rfl⟩ := Prod.mk.inj (Option.some.inj hplain) |>.imp_right Prod.mk.inj
          exact Int.natCast_nonneg _
        · simp only [hbytes, if_false] at hplain
          obtain ⟨_, _, rfl⟩ := Prod.mk.inj (Option.some.inj hplain) |>.imp_right Prod.mk.inj
          exact le_refl _
      refine if_pos (.inr ?_)
      cases hreturned.lt_or_eq with
      | inl hpos => exact .inl hpos
      | inr hzero => exact .inr ⟨hzero.symm, rfl⟩

/-- `read` ends as the plain one does, and records the call. -/
theorem read_measures (promotion : Promotion) (latency : Nat) (hsize : 0 < size) :
    Measures
      (fun out => recorded self.metrics (self.multiLevelCache.delivered fd.path).isSome
        (decide (getFileSize answers file > MAP_THRESHOLD)) out.returned latency)
      (self.read promotion answers latency file fd size)
      (self.toVirtualFileSystem.read promotion answers file fd size) := by
  have hfound := (self.multiLevelCache.get_spec promotion fd.path answers.getTime).1
  unfold read VirtualFileSystem.read
  rw [if_neg (Nat.ne_of_gt hsize), if_neg (Nat.ne_of_gt hsize), ← hfound]
  cases self.multiLevelCache.get promotion fd.path answers.getTime with
  | mk multiLevelCache cached =>
    cases cached with
    | some cachedData =>
      apply measures_recording
      intro vfs fd' out hplain
      obtain ⟨copied, _, hplain⟩ := Option.bind_eq_some_iff.mp hplain
      obtain ⟨_, _, rfl⟩ := Prod.mk.inj (Option.some.inj hplain) |>.imp_right Prod.mk.inj
      rfl
    | none =>
      simp only
      by_cases hmap : getFileSize answers file > MAP_THRESHOLD
      · rw [if_pos hmap, if_pos hmap, decide_eq_true hmap]
        exact readMapped_measures latency hsize
      · rw [if_neg hmap, if_neg hmap, decide_eq_false hmap]
        exact readBuffered_measures latency

/-- The length of what is delivered for the path. -/
def lengthAt (delivered : String → Option Data) (path : String) : Nat :=
  ((delivered path).map List.length).getD 0

/-- By how many bytes the paths are delivered shorter. -/
def saved (paths : Finset String) (before after : String → Option Data) : Nat :=
  ∑ path ∈ paths, (lengthAt before path - lengthAt after path)

theorem saved_add {paths : Finset String} {before middle after : String → Option Data}
    (hfirst : ∀ path, lengthAt middle path ≤ lengthAt before path)
    (hsecond : ∀ path, lengthAt after path ≤ lengthAt middle path) :
    saved paths before middle + saved paths middle after = saved paths before after := by
  rw [saved, saved, saved, ← Finset.sum_add_distrib]
  refine Finset.sum_congr rfl fun path _ => ?_
  have hmiddle := hfirst path
  have hafter := hsecond path
  omega

theorem saved_of_eq_on {paths : Finset String} {before after : String → Option Data} {path : String}
    (hmem : path ∈ paths) (hothers : ∀ other, other ≠ path → after other = before other) :
    saved paths before after = lengthAt before path - lengthAt after path := by
  refine Finset.sum_eq_single_of_mem path hmem fun other _ hne => ?_
  rw [lengthAt, lengthAt, hothers other hne, Nat.sub_self]

theorem recordCompression_recordCompression (metrics : PerformanceMetrics) (bytes more : Nat) :
    (metrics.recordCompression bytes).recordCompression more = metrics.recordCompression (bytes + more) := by
  simp only [PerformanceMetrics.recordCompression, Nat.add_assoc]

theorem lengthAt_le_of_shortened {before after : String → Option Data}
    (h : VirtualFileSystem.Shortened before after) (path : String) :
    lengthAt after path ≤ lengthAt before path := by
  cases h path with
  | inl hsame => rw [lengthAt, hsame, lengthAt]
  | inr hshorter =>
    obtain ⟨data, shorter, hbefore, hafter, hlt⟩ := hshorter
    rw [lengthAt, lengthAt, hbefore, hafter]
    exact hlt.le

theorem saved_self (paths : Finset String) (delivered : String → Option Data) :
    saved paths delivered delivered = 0 :=
  Finset.sum_eq_zero fun _ _ => Nat.sub_self _

theorem levels_ne_nil_of_delivered {cache : MultiLevelCache} {path : String} {data : Data}
    (h : cache.delivered path = some data) : cache.levels ≠ [] := by
  intro hnil
  rw [MultiLevelCache.delivered, hnil, contents_nil] at h
  cases h

/-- One file: the cache that the plain loop leaves, and the bytes it lost. -/
theorem compressFile_eq (promotion : Promotion) (answers : CompressionAnswers) (cache : MultiLevelCache)
    (metrics : PerformanceMetrics) {path : String} {paths : Finset String} (hmem : path ∈ paths) :
    compressFile zlib promotion answers cache metrics path =
      (VirtualFileSystem.compressFile zlib promotion answers cache path,
        metrics.recordCompression (saved paths cache.delivered
          (VirtualFileSystem.compressFile zlib promotion answers cache path).delivered)) := by
  obtain ⟨hfound, hdelivered⟩ := cache.get_spec promotion path answers.getTime
  unfold compressFile VirtualFileSystem.compressFile
  cases hget : cache.get promotion path answers.getTime with
  | mk read cached =>
    rw [hget] at hfound hdelivered
    simp only at hfound hdelivered
    have hunchanged : saved paths cache.delivered read.delivered = 0 := by rw [hdelivered, saved_self]
    cases cached with
    | none =>
      simp only [hunchanged]
      rfl
    | some data =>
      by_cases hshorter : (CompressionManager.compress zlib answers.deflateInit data).length < data.length
      · simp only [if_pos hshorter]
        have hread : read.delivered path = some data := by rw [hdelivered, hfound]
        have hput := MultiLevelCache.put_spec (levels_ne_nil_of_delivered hread) path
          (CompressionManager.compress zlib answers.deflateInit data) true answers.putTime
        rw [hdelivered] at hput
        have hothers (other : String) (hne : other ≠ path) :
            (read.put path (CompressionManager.compress zlib answers.deflateInit data) true
              answers.putTime).delivered other = cache.delivered other := by
          rw [hput, Function.update_of_ne hne]
        rw [saved_of_eq_on hmem hothers, hput, lengthAt, lengthAt, ← hfound, Function.update_self]
        rfl
      · simp only [if_neg hshorter, hunchanged]
        rfl

/-- The loop leaves the cache that the plain one leaves, and records the bytes
by which the files became shorter. -/
theorem compressFiles_eq (promotion : Promotion) (answers : Nat → CompressionAnswers) (paths : Finset String)
    (files : List String) (hfiles : ∀ path ∈ files, path ∈ paths) (i : Nat) (cache : MultiLevelCache)
    (metrics : PerformanceMetrics) :
    compressFiles zlib promotion answers i files cache metrics =
      (VirtualFileSystem.compressFiles zlib promotion answers i files cache,
        metrics.recordCompression (saved paths cache.delivered
          (VirtualFileSystem.compressFiles zlib promotion answers i files cache).delivered)) := by
  induction files generalizing i cache metrics with
  | nil =>
    rw [VirtualFileSystem.compressFiles, saved_self]
    rfl
  | cons path rest ih =>
    obtain ⟨hpath, hrest⟩ := List.forall_mem_cons.mp hfiles
    have hfirst := VirtualFileSystem.compressFile_shortened zlib promotion (answers i) cache path
    have hlater := VirtualFileSystem.compressFiles_shortened zlib promotion answers rest (i + 1)
      (VirtualFileSystem.compressFile zlib promotion (answers i) cache path)
    rw [compressFiles, compressFile_eq zlib promotion (answers i) cache metrics hpath]
    simp only [ih hrest, recordCompression_recordCompression, VirtualFileSystem.compressFiles]
    rw [saved_add (lengthAt_le_of_shortened hfirst) (lengthAt_le_of_shortened hlater)]

/-- The bytes by which a pass makes the inactive files shorter. -/
def savedByPass (vfs : VirtualFileSystem) (promotion : Promotion) (answers : Nat → CompressionAnswers)
    (now : Nat) : Nat :=
  saved (inactiveFiles vfs.multiLevelCache now).toFinset vfs.multiLevelCache.delivered
    (vfs.compressInactiveFiles zlib promotion answers now).multiLevelCache.delivered

theorem compressInactiveFiles_eq (self : MeasuredFileSystem) (promotion : Promotion)
    (answers : Nat → CompressionAnswers) (now : Nat) :
    self.compressInactiveFiles zlib promotion answers now =
      ⟨self.toVirtualFileSystem.compressInactiveFiles zlib promotion answers now,
        self.metrics.recordCompression (savedByPass zlib self.toVirtualFileSystem promotion answers now)⟩ := by
  unfold compressInactiveFiles
  rw [compressFiles_eq zlib promotion answers (inactiveFiles self.multiLevelCache now).toFinset _
    fun path hpath => List.mem_toFinset.mpr hpath]
  rfl

end MeasuredFileSystem

end Kernel.FileSystem
