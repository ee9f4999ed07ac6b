import Mathlib.Algebra.Order.Field.Basic
import Mathlib.Tactic.NormNum
import KernelcModerne.Filesystem.BufferPoolRuns
import KernelcModerne.Filesystem.CacheEviction
import KernelcModerne.Filesystem.PerformanceMetrics
import KernelcModerne.Filesystem.ReadRuns
import KernelcModerne.Lib.Transition

open Transition

namespace Kernel.FileSystem

namespace BufferPool

theorem length_acquire {self after : BufferPool} {buffer : Nat} (h : self.acquire = some (after, buffer)) :
    after.pool.length = self.pool.length := by
  obtain ⟨i, _, heq⟩ := Option.map_eq_some_iff.mp h
  obtain ⟨rfl, rfl⟩ := Prod.mk.inj heq
  exact List.length_modify _ _ _

theorem length_release (self : BufferPool) (buffer : Nat) :
    (self.release buffer).pool.length = self.pool.length := List.length_modify _ _ _

end BufferPool

namespace MultiLevelCache

def sizes (self : MultiLevelCache) : List Nat := self.levels.map CacheLevel.size

theorem sizes_probe (key : String) (now : Nat) (levels : List CacheLevel) :
    (probe key now levels).1.map CacheLevel.size = levels.map CacheLevel.size := by
  induction levels with
  | nil => rfl
  | cons level rest ih =>
    rw [probe]
    cases level.data.lookup key with
    | some entry => rfl
    | none => exact congrArg (level.size :: ·) ih

theorem sizes_moveUp (key : String) (i : Nat) (levels : List CacheLevel) :
    (moveUp key i levels).map CacheLevel.size = levels.map CacheLevel.size := by
  induction i generalizing levels with
  | zero => cases levels <;> rfl
  | succ i ih =>
    cases levels with
    | nil => cases i <;> rfl
    | cons upper rest =>
      cases i with
      | succ i => rw [moveUp, List.map_cons, List.map_cons, ih]
      | zero =>
        cases rest with
        | nil => rfl
        | cons lower rest =>
          rw [moveUp]
          cases lower.data.lookup key <;> rfl

theorem sizes_get (self : MultiLevelCache) (promotion : Promotion) (key : String) (now : Nat) :
    (self.get promotion key now).1.sizes = self.sizes := by
  have hprobe := sizes_probe key now self.levels
  unfold get
  cases hresult : probe key now self.levels with
  | mk levels found =>
    rw [hresult] at hprobe
    cases found with
    | none => exact hprobe
    | some hit =>
      obtain ⟨i, data⟩ := hit
      refine Eq.trans ?_ hprobe
      cases promotion.moves levels key data i with
      | inl hsame => exact congrArg (List.map CacheLevel.size) hsame
      | inr hmove => exact (congrArg (List.map CacheLevel.size) hmove).trans (sizes_moveUp key i levels)

theorem sizes_putFirst {key : String} {entry : CacheEntry} {levels after : List CacheLevel}
    (h : putFirst key entry levels = some after) :
    after.map CacheLevel.size = levels.map CacheLevel.size := by
  induction levels generalizing after with
  | nil => cases h
  | cons level rest ih =>
    rw [putFirst] at h
    cases hlookup : level.data.lookup key with
    | some old =>
      simp only [hlookup, Option.some.injEq] at h
      rw [← h, List.map_cons, List.map_cons]
    | none =>
      simp only [hlookup] at h
      obtain ⟨tail, htail, rfl⟩ := Option.map_eq_some_iff.mp h
      rw [List.map_cons, List.map_cons, ih htail]

theorem sizes_put (self : MultiLevelCache) (key : String) (data : Data) (dirty : Bool) (now : Nat) :
    (self.put key data dirty now).sizes = self.sizes := by
  unfold put
  cases hfirst : putFirst key ⟨data, now, dirty⟩ self.levels with
  | some levels =>
    simp only [hfirst]
    exact sizes_putFirst hfirst
  | none =>
    simp only [hfirst, sizes]
    cases self.levels <;> rfl

theorem sizes_optimizeCache {self after : MultiLevelCache} {order : EvictionOrder} {now : Nat}
    (h : self.optimizeCache order now = some after) : after.sizes = self.sizes := by
  rw [sizes, optimizeCache_levels h, List.map_map]
  exact List.map_congr_left fun level _ => CacheLevel.size_optimizedLevel order level

theorem sizes_expandLevel {self after : MultiLevelCache} {level size : Nat}
    (h : self.expandLevel level size = some after) :
    after.sizes = self.sizes.modify level (Word64.add · size) := by
  obtain ⟨_, hafter⟩ := Option.ite_none_right_eq_some.mp h
  obtain rfl := Option.some.inj hafter
  refine List.ext_getElem? fun i => ?_
  simp only [sizes, List.getElem?_map, List.getElem?_modify]
  cases self.levels[i]? with
  | none => rfl
  | some found => split <;> rfl

theorem sizes_compressFile (zlib : Zlib) (promotion : Promotion)
    (answers : VirtualFileSystem.CompressionAnswers) (cache : MultiLevelCache) (path : String) :
    (VirtualFileSystem.compressFile zlib promotion answers cache path).sizes = cache.sizes := by
  have hget := cache.sizes_get promotion path answers.getTime
  unfold VirtualFileSystem.compressFile
  cases hresult : cache.get promotion path answers.getTime with
  | mk read cached =>
    rw [hresult] at hget
    cases cached with
    | none => exact hget
    | some data =>
      simp only
      split
      · exact (sizes_put read path _ true answers.putTime).trans hget
      · exact hget

theorem sizes_compressFiles (zlib : Zlib) (promotion : Promotion)
    (answers : Nat → VirtualFileSystem.CompressionAnswers) (files : List String) (i : Nat)
    (cache : MultiLevelCache) :
    (VirtualFileSystem.compressFiles zlib promotion answers i files cache).sizes = cache.sizes := by
  induction files generalizing i cache with
  | nil => rfl
  | cons path rest ih => exact (ih (i + 1) _).trans (sizes_compressFile zlib promotion (answers i) cache path)

end MultiLevelCache

namespace VirtualFileSystem

/-- The sizes of the cache's levels and of the pool stay. -/
structure KeepsSizes (vfs after : VirtualFileSystem) : Prop where
  sizes : after.multiLevelCache.sizes = vfs.multiLevelCache.sizes
  pool : after.bufferPool.pool.length = vfs.bufferPool.pool.length

/-- What a call leaves behind has the sizes of `vfs`. -/
def LeavesSizes (vfs : VirtualFileSystem) (result : ReadEnd) : Prop :=
  ∀ after fd out, result = some (after, fd, out) → KeepsSizes vfs after

variable {vfs after : VirtualFileSystem}

theorem leavesSizes_none : LeavesSizes vfs none := nofun

theorem KeepsSizes.leaves (h : KeepsSizes vfs after) (fd : FileDescriptor) (out : ReadResult) :
    LeavesSizes vfs (some (after, fd, out)) := by
  rintro _ _ _ heq
  obtain ⟨rfl, _⟩ := Prod.mk.inj (Option.some.inj heq)
  exact h

theorem KeepsSizes.put (h : KeepsSizes vfs after) (path : String) (chunk : Data) (time : Nat) :
    KeepsSizes vfs { after with multiLevelCache := after.multiLevelCache.put path chunk false time } where
  sizes := (MultiLevelCache.sizes_put _ _ _ _ _).trans h.sizes
  pool := h.pool

theorem KeepsSizes.readCached (h : KeepsSizes vfs after) (fd : FileDescriptor) (chunk : Data) (size : Nat) :
    LeavesSizes vfs (after.readCached fd chunk size) := by
  cases hcopy : copyBytes chunk fd.position (min size (Word64.sub chunk.length fd.position)) with
  | none =>
    simp only [VirtualFileSystem.readCached, hcopy, Option.bind_eq_bind, Option.bind_none]
    exact leavesSizes_none
  | some copied =>
    simp only [VirtualFileSystem.readCached, hcopy, Option.bind_eq_bind, Option.bind_some]
    exact h.leaves _ _

theorem KeepsSizes.readRegion (h : KeepsSizes vfs after) (answers : ReadAnswers)
    (mappedFile : MemoryMappedFile) (fd : FileDescriptor) (size : Nat) :
    LeavesSizes vfs (after.readRegion answers mappedFile fd size) := by
  unfold VirtualFileSystem.readRegion
  split
  · exact h.leaves _ _
  · cases mappedFile.mapped_region with
    | none => exact leavesSizes_none
    | some mappedData =>
      simp only [Option.bind_eq_bind, Option.bind_some]
      cases copyBytes mappedData fd.position (min size (mappedFile.file_size - fd.position)) with
      | none => exact leavesSizes_none
      | some copied => exact (h.put fd.path copied answers.putTime).leaves _ _

theorem KeepsSizes.readMapped (h : KeepsSizes vfs after) (answers : ReadAnswers) (file : Data)
    (fd : FileDescriptor) (size : Nat) : LeavesSizes vfs (after.readMapped answers file fd size) := by
  have hinsert (mappedFile : MemoryMappedFile) :
      KeepsSizes vfs { after with mappedFiles := after.mappedFiles.insert fd.path mappedFile } :=
    ⟨h.sizes, h.pool⟩
  unfold VirtualFileSystem.readMapped
  cases after.mappedFiles.lookup fd.path with
  | some mappedFile => exact h.readRegion answers mappedFile fd size
  | none =>
    simp only
    split
    · exact (hinsert _).leaves _ _
    · exact (hinsert _).readRegion answers _ fd size

theorem KeepsSizes.readBuffered (h : KeepsSizes vfs after) (answers : ReadAnswers) (file : Data)
    (fd : FileDescriptor) (size : Nat) : LeavesSizes vfs (after.readBuffered answers file fd size) := by
  unfold VirtualFileSystem.readBuffered
  cases hacquire : after.bufferPool.acquire with
  | none => exact h.leaves _ _
  | some acquired =>
    obtain ⟨acquired, buffer⟩ := acquired
    have hreleased : KeepsSizes vfs { after with bufferPool := acquired.release buffer } := by
      refine ⟨h.sizes, ?_⟩
      rw [BufferPool.length_release, BufferPool.length_acquire hacquire, h.pool]
    simp only
    split
    · exact hreleased.leaves _ _
    · split
      · exact (hreleased.put fd.path _ answers.putTime).leaves _ _
      · exact hreleased.leaves _ _

theorem read_keepsSizes (vfs : VirtualFileSystem) (promotion : Promotion) (answers : ReadAnswers)
    (file : Data) (fd : FileDescriptor) (size : Nat) :
    LeavesSizes vfs (vfs.read promotion answers file fd size) := by
  have hself : KeepsSizes vfs vfs := ⟨rfl, rfl⟩
  have hget := vfs.multiLevelCache.sizes_get promotion fd.path answers.getTime
  unfold VirtualFileSystem.read
  split
  · exact hself.leaves _ _
  · cases hresult : vfs.multiLevelCache.get promotion fd.path answers.getTime with
    | mk multiLevelCache cached =>
      rw [hresult] at hget
      have hread : KeepsSizes vfs { vfs with multiLevelCache } := ⟨hget, rfl⟩
      cases cached with
      | some cachedData => exact hread.readCached fd cachedData size
      | none =>
        simp only
        split
        · exact hread.readMapped answers file fd size
        · exact hread.readBuffered answers file fd size

end VirtualFileSystem

/-- What an observer of the file system sees: a read, whether the cache had the
path and whether the file is mapped, what it returned and how long it took; by
how much a compression pass made the cached files shorter; and a collection of
the metrics. -/
inductive Event where
  | read (cached mapped : Bool) (returned : Int) (latency : Nat)
  | compressed (bytes : Nat)
  | collected (elapsed : Nat)

namespace Event

def isHit : Event → Bool
  | read cached _ _ _ => cached
  | _ => false

def isMiss : Event → Bool
  | read cached _ _ _ => !cached
  | _ => false

/-- The bytes that a read of a cached path returned. -/
def hitBytes : Event → Nat
  | read true _ returned _ => returned.toNat
  | _ => 0

def savedBytes : Event → Nat
  | compressed bytes => bytes
  | _ => 0

def latency? : Event → Option Nat
  | read cached mapped returned latency =>
    if MeasuredFileSystem.Timed cached mapped returned then some latency else none
  | _ => none

def elapsed? : Event → Option Nat
  | collected elapsed => some elapsed
  | _ => none

end Event

/-- The reads of cached paths and the others, the bytes that the first ones
returned, the bytes saved by compression, and the times recorded; nothing is
ever written. -/
def summary (log : List Event) : PerformanceMetrics where
  read_ops := log.countP Event.isHit
  write_ops := 0
  cache_hits := log.countP Event.isHit
  cache_misses := log.countP Event.isMiss
  total_bytes_read := (log.map Event.hitBytes).sum
  total_bytes_written := 0
  total_bytes_compressed := (log.map Event.savedBytes).sum
  read_latencies := log.filterMap Event.latency?

theorem summary_nil : summary [] = .constructed := rfl

theorem summary_concat_collected (log : List Event) (elapsed : Nat) :
    summary (log ++ [.collected elapsed]) = summary log := by
  simp [summary, Event.isHit, Event.isMiss, Event.hitBytes, Event.savedBytes, Event.latency?]

theorem summary_concat_compressed (log : List Event) (bytes : Nat) :
    summary (log ++ [.compressed bytes]) = (summary log).recordCompression bytes := by
  simp [summary, PerformanceMetrics.recordCompression, Event.isHit, Event.isMiss, Event.hitBytes,
    Event.savedBytes, Event.latency?]

theorem summary_concat_read (log : List Event) (cached mapped : Bool) (returned : Int) (latency : Nat) :
    summary (log ++ [.read cached mapped returned latency]) =
      MeasuredFileSystem.recorded (summary log) cached mapped returned latency := by
  have htimed : (log ++ [Event.read cached mapped returned latency]).filterMap Event.latency? =
      if MeasuredFileSystem.Timed cached mapped returned then log.filterMap Event.latency? ++ [latency]
      else log.filterMap Event.latency? := by
    rw [List.filterMap_append]
    split
    · next h => simp [Event.latency?, h]
    · next h => simp [Event.latency?, h]
  unfold summary MeasuredFileSystem.recorded
  rw [htimed]
  cases cached with
  | true => split <;> simp [PerformanceMetrics.recordCacheHit, PerformanceMetrics.recordRead,
      PerformanceMetrics.recordReadLatency, Event.isHit, Event.isMiss, Event.hitBytes, Event.savedBytes]
  | false => split <;> simp [PerformanceMetrics.recordCacheMiss, PerformanceMetrics.recordReadLatency,
      Event.isHit, Event.isMiss, Event.hitBytes, Event.savedBytes]

namespace MeasuredFileSystem

open VirtualFileSystem (MAP_THRESHOLD getFileSize)

variable (zlib : Zlib)

/-- What a call shows. A read of no bytes is refused at once. -/
def observe (self : MeasuredFileSystem) : Op → List Event
  | .read promotion answers latency file fd size =>
    if size.toNat = 0 then []
    else
      ((self.toVirtualFileSystem.read promotion answers file fd size.toNat).map fun (_, _, out) =>
        .read (self.multiLevelCache.delivered fd.path).isSome
          (decide (getFileSize answers file > MAP_THRESHOLD)) out.returned latency).toList
  | .compressInactiveFiles promotion answers now =>
    [.compressed (savedByPass zlib self.toVirtualFileSystem promotion answers now)]
  | .optimizeCache _ _ => []
  | .collectAndAnalyzeMetrics elapsed => [.collected elapsed]

theorem metrics_collect {self after : MeasuredFileSystem} {elapsed : Nat}
    (h : self.collectAndAnalyzeMetrics elapsed = some after) : after.metrics = self.metrics := by
  obtain ⟨multiLevelCache, _, rfl⟩ := Option.map_eq_some_iff.mp h
  rfl

/-- A read is refused and shows nothing, or it is the plain one with its metrics. -/
theorem read_cases {self after : MeasuredFileSystem} {promotion : Promotion} {answers : ReadAnswers}
    {latency : Nat} {file : Data} {fd : FileDescriptor} {size : UInt64}
    (hstep : self.step zlib (.read promotion answers latency file fd size) = some after) :
    (after = self ∧ self.observe zlib (.read promotion answers latency file fd size) = []) ∨
      ∃ vfs fd' out cached mapped,
        self.toVirtualFileSystem.read promotion answers file fd size.toNat = some (vfs, fd', out) ∧
        after = ⟨vfs, recorded self.metrics cached mapped out.returned latency⟩ ∧
        self.observe zlib (.read promotion answers latency file fd size) =
          [.read cached mapped out.returned latency] := by
  obtain ⟨⟨left, fd', out⟩, hread, rfl⟩ := Option.map_eq_some_iff.mp hstep
  by_cases hzero : size.toNat = 0
  · rw [read, if_pos hzero] at hread
    obtain ⟨rfl, _⟩ := Prod.mk.inj (Option.some.inj hread)
    exact .inl ⟨rfl, by rw [observe, if_pos hzero]⟩
  · rw [read_measures promotion latency (Nat.pos_of_ne_zero hzero)] at hread
    obtain ⟨⟨vfs, fd', out⟩, hplain, heq⟩ := Option.map_eq_some_iff.mp hread
    obtain ⟨rfl, _⟩ := Prod.mk.inj heq
    refine .inr ⟨vfs, fd', out, _, _, hplain, rfl, ?_⟩
    rw [observe, if_neg hzero, hplain]
    rfl

/-- A step records what it shows. -/
theorem metrics_step {self after : MeasuredFileSystem} {log : List Event} {op : Op}
    (hmetrics : self.metrics = summary log) (hstep : self.step zlib op = some after) :
    after.metrics = summary (log ++ self.observe zlib op) := by
  cases op with
  | read promotion answers latency file fd size =>
    obtain ⟨rfl, hobserve⟩ | ⟨vfs, fd', out, cached, mapped, -, rfl, hobserve⟩ := read_cases zlib hstep
    · rw [hobserve, List.append_nil]
      exact hmetrics
    · rw [hobserve, hmetrics]
      exact (summary_concat_read log _ _ _ _).symm
  | compressInactiveFiles promotion answers now =>
    obtain rfl := Option.some.inj hstep
    rw [compressInactiveFiles_eq, hmetrics, observe, summary_concat_compressed]
  | optimizeCache order now =>
    obtain ⟨multiLevelCache, _, rfl⟩ := Option.map_eq_some_iff.mp hstep
    rw [observe, List.append_nil]
    exact hmetrics
  | collectAndAnalyzeMetrics elapsed =>
    rw [metrics_collect hstep, hmetrics, observe, summary_concat_collected]

/-- The metrics of a file system are the summary of what was done with it, in
whatever order readers and background threads come. -/
theorem metrics_summarise {ops : List Op} {after : MeasuredFileSystem}
    (hrun : run (step zlib) constructed ops = some after) :
    after.metrics = summary (trace (step zlib) (observe zlib) constructed ops) := by
  refine trace_invariant (fun log self => self.metrics = summary log) ?_ ops summary_nil hrun
  intro log self op next hmetrics hstep
  exact metrics_step zlib hmetrics hstep

/-- Two reads of a ten-byte file, of which the second finds four bytes in the
cache. -/
def readTwice : List Op :=
  [.read .stay VirtualFileSystem.Client.willing 7 [0, 1, 2, 3, 4, 5, 6, 7, 8, 9] ⟨"f", 0⟩ 4,
    .collectAndAnalyzeMetrics 30,
    .read .stay VirtualFileSystem.Client.willing 2 [0, 1, 2, 3, 4, 5, 6, 7, 8, 9] ⟨"f", 0⟩ 4,
    .collectAndAnalyzeMetrics 60]

theorem metrics_summarise_two : ∃ after,
    run (step VirtualFileSystem.zerosZlib) constructed readTwice = some after ∧
      after.metrics = summary (trace (step VirtualFileSystem.zerosZlib) (observe VirtualFileSystem.zerosZlib)
        constructed readTwice) := by
  have hends : (run (step VirtualFileSystem.zerosZlib) constructed readTwice).isSome = true := by decide +kernel
  obtain ⟨after, hrun⟩ := Option.isSome_iff_exists.mp hends
  exact ⟨after, hrun, metrics_summarise VirtualFileSystem.zerosZlib hrun⟩

/-- More reads missed the cache than hit it, or there was no read. -/
def FewHits (log : List Event) : Prop :=
  log.countP Event.isHit < log.countP Event.isMiss ∨ log.countP Event.isHit + log.countP Event.isMiss = 0

instance (log : List Event) : Decidable (FewHits log) := inferInstanceAs (Decidable (_ ∨ _))

/-- Reads of cached paths returned less than 100 MB for each unit of time. -/
def Slow (log : List Event) (elapsed : Nat) : Prop :=
  0 < elapsed ∧ (log.map Event.hitBytes).sum < 100 * (1024 * 1024) * elapsed

instance (log : List Event) (elapsed : Nat) : Decidable (Slow log elapsed) :=
  inferInstanceAs (Decidable (_ ∧ _))

/-- How many collections of the log find of the events before them, the first of
which are `first`, what `P` says. -/
def collections (P : List Event → Nat → Bool) : List Event → List Event → Nat
  | _, [] => 0
  | first, event :: rest => (event.elapsed?.any (P first)).toNat + collections P (first ++ [event]) rest

theorem collections_append (P : List Event → Nat → Bool) (first log rest : List Event) :
    collections P first (log ++ rest) = collections P first log + collections P (first ++ log) rest := by
  induction log generalizing first with
  | nil => rw [List.nil_append, List.append_nil, collections, Nat.zero_add]
  | cons event log ih =>
    rw [List.cons_append, collections, collections, ih, Nat.add_assoc, List.append_assoc, List.singleton_append]

theorem collections_concat_collected (P : List Event → Nat → Bool) (log : List Event) (elapsed : Nat) :
    collections P [] (log ++ [.collected elapsed]) = collections P [] log + (P log elapsed).toNat := by
  rw [collections_append]
  rfl

theorem getCacheHitRatio_lt_iff (log : List Event) :
    (summary log).getCacheHitRatio < 1 / 2 ↔ FewHits log := by
  have hratio : (summary log).getCacheHitRatio =
      if log.countP Event.isHit + log.countP Event.isMiss ≠ 0 then
        (log.countP Event.isHit : ℚ) / (log.countP Event.isHit + log.countP Event.isMiss : Nat) else 0 := rfl
  rw [hratio, FewHits]
  split
  · next hsome =>
    have hpos : (0 : ℚ) < (log.countP Event.isHit + log.countP Event.isMiss : Nat) := by
      exact_mod_cast Nat.pos_of_ne_zero hsome
    rw [div_lt_div_iff₀ hpos two_pos, or_iff_left hsome, one_mul]
    norm_cast
    omega
  · next hnone =>
    rw [not_not] at hnone
    exact iff_of_true (by norm_num) (.inr hnone)

theorem getThroughput_lt_iff (log : List Event) (elapsed : Nat) :
    (∃ throughput ∈ (summary log).getThroughput elapsed, throughput < TARGET_THROUGHPUT) ↔
      Slow log elapsed := by
  have hthroughput : (summary log).getThroughput elapsed =
      if elapsed ≠ 0 then some ((((log.map Event.hitBytes).sum : ℚ) + (0 : Nat)) / elapsed / (1024 * 1024))
      else none := rfl
  rw [hthroughput, Slow, TARGET_THROUGHPUT]
  split
  · next hsome =>
    have hpos : (0 : ℚ) < elapsed := by exact_mod_cast Nat.pos_of_ne_zero hsome
    have hmega : (0 : ℚ) < 1024 * 1024 := by norm_num
    rw [and_iff_right (Nat.pos_of_ne_zero hsome)]
    simp only [Option.mem_def, Option.some.injEq, exists_eq_left', Nat.cast_zero, add_zero]
    rw [div_lt_iff₀ hmega, div_lt_iff₀ hpos]
    norm_cast
  · next hnone =>
    rw [not_not] at hnone
    refine iff_of_false ?_ ?_
    · rintro ⟨throughput, hthroughput, _⟩
      cases hthroughput
    · omega

/-- The first level has grown by 1 MB and the pool by 64 buffers for each
collection that asked for it. -/
structure Sized (log : List Event) (vfs : VirtualFileSystem) : Prop where
  sizes : vfs.multiLevelCache.sizes =
    [(1024 * 1024 * (1 + collections (fun log _ => decide (FewHits log)) [] log)) % 2 ^ 64,
      8 * 1024 * 1024, 32 * 1024 * 1024]
  pool : vfs.bufferPool.pool.length =
    (1024 + 64 * collections (fun log elapsed => decide (Slow log elapsed)) [] log) % 2 ^ 64

theorem sized_constructed : Sized [] VirtualFileSystem.constructed where
  sizes := rfl
  pool := List.length_replicate

/-- Events that are no collection change no size. -/
theorem Sized.of_keeps {log : List Event} {vfs after : VirtualFileSystem} (h : Sized log vfs)
    (hkeeps : vfs.KeepsSizes after) (events : List Event)
    (hevents : ∀ P, collections P log events = 0) : Sized (log ++ events) after where
  sizes := by rw [collections_append, List.nil_append, hevents, Nat.add_zero, hkeeps.sizes, h.sizes]
  pool := by rw [collections_append, List.nil_append, hevents, Nat.add_zero, hkeeps.pool, h.pool]

theorem sized_collect {self after : MeasuredFileSystem} {log : List Event} {elapsed : Nat}
    (hmetrics : self.metrics = summary log) (h : Sized log self.toVirtualFileSystem)
    (hstep : self.collectAndAnalyzeMetrics elapsed = some after) :
    Sized (log ++ [.collected elapsed]) after.toVirtualFileSystem := by
  unfold collectAndAnalyzeMetrics at hstep
  simp only [hmetrics, getCacheHitRatio_lt_iff, getThroughput_lt_iff] at hstep
  obtain ⟨multiLevelCache, hcache, rfl⟩ := Option.map_eq_some_iff.mp hstep
  constructor
  · rw [collections_concat_collected]
    by_cases hfew : FewHits log
    · rw [if_pos hfew] at hcache
      rw [MultiLevelCache.sizes_expandLevel hcache, h.sizes, decide_eq_true hfew]
      simp only [List.modify_zero_cons, Word64.add, Nat.mod_add_mod, Bool.toNat_true]
      congr 2
    · rw [if_neg hfew] at hcache
      obtain rfl := Option.some.inj hcache
      rw [h.sizes, decide_eq_false hfew, Bool.toNat_false, Nat.add_zero]
  · rw [collections_concat_collected]
    by_cases hslow : Slow log elapsed
    · simp only [if_pos hslow, BufferPool.length_expand, h.pool, decide_eq_true hslow, Word64.add,
        Nat.mod_add_mod, Bool.toNat_true]
      rfl
    · simp only [if_neg hslow, decide_eq_false hslow, Bool.toNat_false, Nat.add_zero]
      exact h.pool

theorem sized_step {self after : MeasuredFileSystem} {log : List Event} {op : Op}
    (hmetrics : self.metrics = summary log) (h : Sized log self.toVirtualFileSystem)
    (hstep : self.step zlib op = some after) :
    Sized (log ++ self.observe zlib op) after.toVirtualFileSystem := by
  cases op with
  | read promotion answers latency file fd size =>
    obtain ⟨rfl, hobserve⟩ | ⟨vfs, fd', out, cached, mapped, hplain, rfl, hobserve⟩ := read_cases zlib hstep
    · rw [hobserve, List.append_nil]
      exact h
    · rw [hobserve]
      exact h.of_keeps (VirtualFileSystem.read_keepsSizes _ _ _ _ _ _ vfs fd' out hplain) _ fun _ => rfl
  | compressInactiveFiles promotion answers now =>
    obtain rfl := Option.some.inj hstep
    have hkeeps : self.toVirtualFileSystem.KeepsSizes
        (self.toVirtualFileSystem.compressInactiveFiles zlib promotion answers now) :=
      ⟨MultiLevelCache.sizes_compressFiles zlib promotion answers _ 0 _, rfl⟩
    rw [compressInactiveFiles_eq, observe]
    exact h.of_keeps hkeeps [.compressed _] fun _ => rfl
  | optimizeCache order now =>
    obtain ⟨multiLevelCache, hoptimize, rfl⟩ := Option.map_eq_some_iff.mp hstep
    have hkeeps : self.toVirtualFileSystem.KeepsSizes { self.toVirtualFileSystem with multiLevelCache } :=
      ⟨MultiLevelCache.sizes_optimizeCache hoptimize, rfl⟩
    exact h.of_keeps hkeeps [] fun _ => rfl
  | collectAndAnalyzeMetrics elapsed => exact sized_collect hmetrics h hstep

/-- The first level and the pool grow with each collection that finds few hits,
or few bytes returned, in what was read before it; nothing else changes a size. -/
theorem sizes_follow_reads {ops : List Op} {after : MeasuredFileSystem}
    (hrun : run (step zlib) constructed ops = some after) :
    Sized (trace (step zlib) (observe zlib) constructed ops) after.toVirtualFileSystem := by
  have hinit : constructed.metrics = summary [] ∧ Sized [] constructed.toVirtualFileSystem :=
    ⟨summary_nil, sized_constructed⟩
  refine (trace_invariant (fun log self => self.metrics = summary log ∧ Sized log self.toVirtualFileSystem)
    ?_ ops hinit hrun).2
  rintro log self op next ⟨hmetrics, h⟩ hstep
  exact ⟨metrics_step zlib hmetrics hstep, sized_step zlib hmetrics h hstep⟩

theorem sizes_follow_reads_two : ∃ after,
    run (step VirtualFileSystem.zerosZlib) constructed readTwice = some after ∧
      Sized (trace (step VirtualFileSystem.zerosZlib) (observe VirtualFileSystem.zerosZlib) constructed readTwice)
        after.toVirtualFileSystem := by
  have hends : (run (step VirtualFileSystem.zerosZlib) constructed readTwice).isSome = true := by decide +kernel
  obtain ⟨after, hrun⟩ := Option.isSome_iff_exists.mp hends
  exact ⟨after, hrun, sizes_follow_reads VirtualFileSystem.zerosZlib hrun⟩

end MeasuredFileSystem

end Kernel.FileSystem
