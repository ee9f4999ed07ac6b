import KernelcModerne.Filesystem.VirtualFileSystem

namespace Kernel.FileSystem.VirtualFileSystem

open CompressionManager (Shrinks stream)

variable (zlib : Zlib) (promotion : Promotion)

/-- Compressing one file replaces its bytes by a shorter stream, or changes
nothing. -/
theorem compressFile_cases (answers : CompressionAnswers) (cache : MultiLevelCache) (path : String) :
    (∃ data, cache.delivered path = some data ∧ Shrinks zlib answers.deflateInit data ∧
      (compressFile zlib promotion answers cache path).delivered =
        Function.update cache.delivered path (some (stream zlib data))) ∨
    ((∀ data, cache.delivered path = some data → ¬ Shrinks zlib answers.deflateInit data) ∧
      (compressFile zlib promotion answers cache path).delivered = cache.delivered) := by
  obtain ⟨hfound, hdelivered⟩ := cache.get_spec promotion path answers.getTime
  have hlength := cache.length_get promotion path answers.getTime
  unfold compressFile
  cases hget : cache.get promotion path answers.getTime with
  | mk read cached =>
    rw [hget] at hfound hdelivered hlength
    cases cached with
    | none =>
      refine .inr ⟨fun data hdata => ?_, hdelivered⟩
      rw [← hfound] at hdata
      cases hdata
    | some data =>
      simp only
      by_cases hshrinks : Shrinks zlib answers.deflateInit data
      · rw [if_pos (CompressionManager.length_compress_lt_iff.mpr hshrinks),
          CompressionManager.compress_of_shrinks hshrinks]
        have hlevels : read.levels ≠ [] := by
          intro hnil
          rw [hnil] at hlength
          have hempty := List.eq_nil_of_length_eq_zero hlength.symm
          rw [MultiLevelCache.delivered, hempty] at hfound
          cases hfound
        refine .inl ⟨data, hfound.symm, hshrinks, ?_⟩
        rw [MultiLevelCache.put_spec hlevels]
        exact congrArg (Function.update · path _) hdelivered
      · rw [if_neg (fun hlt => hshrinks (CompressionManager.length_compress_lt_iff.mp hlt))]
        refine .inr ⟨fun found hdata => ?_, hdelivered⟩
        obtain rfl : data = found := Option.some.inj (hfound.trans hdata)
        exact hshrinks

/-- No path is delivered longer than before. -/
def Shortened (before after : String → Option Data) : Prop :=
  ∀ path, after path = before path ∨
    ∃ data shorter, before path = some data ∧ after path = some shorter ∧ shorter.length < data.length

theorem Shortened.trans {before middle after : String → Option Data} (h : Shortened before middle)
    (h' : Shortened middle after) : Shortened before after := by
  intro path
  cases h' path with
  | inl hsame =>
    rw [hsame]
    exact h path
  | inr hshorter =>
    obtain ⟨data, shorter, hmiddle, hafter, hlt⟩ := hshorter
    cases h path with
    | inl hsame => exact .inr ⟨data, shorter, hsame ▸ hmiddle, hafter, hlt⟩
    | inr hearlier =>
      obtain ⟨original, data', hbefore, hmiddle', hlt'⟩ := hearlier
      obtain rfl : data = data' := Option.some.inj (hmiddle.symm.trans hmiddle')
      exact .inr ⟨original, shorter, hbefore, hafter, hlt.trans hlt'⟩

theorem compressFile_shortened (answers : CompressionAnswers) (cache : MultiLevelCache) (path : String) :
    Shortened cache.delivered (compressFile zlib promotion answers cache path).delivered := by
  intro other
  cases compressFile_cases zlib promotion answers cache path with
  | inl hshrunk =>
    obtain ⟨data, hdata, hshrinks, hafter⟩ := hshrunk
    rw [hafter]
    by_cases hother : other = path
    · subst hother
      exact .inr ⟨data, _, hdata, Function.update_self _ _ _, hshrinks.2.2.2⟩
    · exact .inl (Function.update_of_ne hother _ _)
  | inr hsame => exact .inl (congrFun hsame.2 other)

theorem compressFiles_shortened (answers : Nat → CompressionAnswers) (paths : List String) (i : Nat)
    (cache : MultiLevelCache) :
    Shortened cache.delivered (compressFiles zlib promotion answers i paths cache).delivered := by
  induction paths generalizing i cache with
  | nil => exact fun _ => .inl rfl
  | cons path rest ih =>
    have hfirst := compressFile_shortened zlib promotion (answers i) cache path
    exact hfirst.trans (ih (i + 1) _)

/-- No file of the list, the first of which is file number `i`, is compressed. -/
def Incompressible (answers : Nat → CompressionAnswers) (i : Nat) (paths : List String)
    (delivered : String → Option Data) : Prop :=
  ∀ j path data, paths[j]? = some path → delivered path = some data →
    ¬ Shrinks zlib (answers (i + j)).deflateInit data

theorem incompressible_cons {answers : Nat → CompressionAnswers} {i : Nat} {path : String}
    {rest : List String} {delivered : String → Option Data} :
    Incompressible zlib answers i (path :: rest) delivered ↔
      (∀ data, delivered path = some data → ¬ Shrinks zlib (answers i).deflateInit data) ∧
        Incompressible zlib answers (i + 1) rest delivered := by
  constructor
  · intro h
    refine ⟨fun data hdata => h 0 path data rfl hdata, fun j other data hother hdata => ?_⟩
    rw [Nat.add_assoc, Nat.add_comm 1 j]
    exact h (j + 1) other data hother hdata
  · rintro ⟨hfirst, hrest⟩ j other data hother hdata
    cases j with
    | zero =>
      obtain rfl : path = other := Option.some.inj hother
      exact hfirst data hdata
    | succ j =>
      have hnot := hrest j other data hother hdata
      rwa [Nat.add_assoc, Nat.add_comm 1 j] at hnot

/-- The pass changes nothing exactly when it compresses nothing: what one file
has lost no later one gives back. -/
theorem compressFiles_delivered_iff (answers : Nat → CompressionAnswers) (paths : List String) (i : Nat)
    (cache : MultiLevelCache) :
    (compressFiles zlib promotion answers i paths cache).delivered = cache.delivered ↔
      Incompressible zlib answers i paths cache.delivered := by
  induction paths generalizing i cache with
  | nil => exact iff_of_true rfl fun j path data hpath => by simp at hpath
  | cons path rest ih =>
    rw [incompressible_cons, compressFiles]
    cases compressFile_cases zlib promotion (answers i) cache path with
    | inr hsame =>
      obtain ⟨hnot, hdelivered⟩ := hsame
      rw [and_iff_right hnot, ← hdelivered]
      exact ih (i + 1) _
    | inl hshrunk =>
      obtain ⟨data, hdata, hshrinks, hafter⟩ := hshrunk
      refine iff_of_false ?_ fun h => h.1 data hdata hshrinks
      intro hequal
      have hlater := compressFiles_shortened zlib promotion answers rest (i + 1)
        (compressFile zlib promotion (answers i) cache path) path
      rw [hequal, hdata, hafter, Function.update_self] at hlater
      have hlt := hshrinks.2.2.2
      cases hlater with
      | inl hsame =>
        have hlength := congrArg List.length (Option.some.inj hsame)
        omega
      | inr hshorter =>
        obtain ⟨compressed, shorter, hcompressed, hshort, hlt'⟩ := hshorter
        rw [← Option.some.inj hcompressed, ← Option.some.inj hshort] at hlt'
        omega

theorem compressInactiveFiles_delivered_iff (vfs : VirtualFileSystem)
    (answers : Nat → CompressionAnswers) (now : Nat) :
    (vfs.compressInactiveFiles zlib promotion answers now).multiLevelCache.delivered =
        vfs.multiLevelCache.delivered ↔
      Incompressible zlib answers 0 (inactiveFiles vfs.multiLevelCache now)
        vfs.multiLevelCache.delivered :=
  compressFiles_delivered_iff zlib promotion answers _ 0 _

/-- What a call of `read` gives its caller. -/
def outcome (result : ReadEnd) : Option (FileDescriptor × ReadResult) := result.map Prod.snd

/-- Two file systems that differ in their caches only, which deliver the same
bytes. -/
structure SameView (vfs other : VirtualFileSystem) : Prop where
  bufferPool : vfs.bufferPool = other.bufferPool
  mappedFiles : vfs.mappedFiles = other.mappedFiles
  delivered : vfs.multiLevelCache.delivered = other.multiLevelCache.delivered

theorem outcome_readRegion (vfs other : VirtualFileSystem) (answers : ReadAnswers)
    (mappedFile : MemoryMappedFile) (fd : FileDescriptor) (size : Nat) :
    outcome (vfs.readRegion answers mappedFile fd size) =
      outcome (other.readRegion answers mappedFile fd size) := by
  unfold readRegion
  split
  · rfl
  · cases mappedFile.mapped_region with
    | none => rfl
    | some mappedData =>
      simp only [Option.bind_eq_bind, Option.bind_some]
      cases copyBytes mappedData fd.position (min size (mappedFile.file_size - fd.position)) <;> rfl

theorem outcome_readMapped {vfs other : VirtualFileSystem}
    (hmappedFiles : vfs.mappedFiles = other.mappedFiles) (answers : ReadAnswers) (file : Data)
    (fd : FileDescriptor) (size : Nat) :
    outcome (vfs.readMapped answers file fd size) = outcome (other.readMapped answers file fd size) := by
  unfold readMapped
  rw [hmappedFiles]
  cases other.mappedFiles.lookup fd.path with
  | some mappedFile => exact outcome_readRegion vfs other answers mappedFile fd size
  | none =>
    simp only
    cases hmapped : (({} : MemoryMappedFile).map answers file).2 with
    | false => rfl
    | true => exact outcome_readRegion _ _ _ _ _ _

theorem outcome_readBuffered {vfs other : VirtualFileSystem}
    (hbufferPool : vfs.bufferPool = other.bufferPool) (answers : ReadAnswers) (file : Data)
    (fd : FileDescriptor) (size : Nat) :
    outcome (vfs.readBuffered answers file fd size) =
      outcome (other.readBuffered answers file fd size) := by
  unfold readBuffered
  rw [hbufferPool]
  cases other.bufferPool.acquire with
  | none => rfl
  | some acquired =>
    simp only
    split
    · rfl
    · split <;> rfl

theorem SameView.outcome_read {vfs other : VirtualFileSystem} (h : SameView vfs other)
    (answers : ReadAnswers) (file : Data) (fd : FileDescriptor) (size : Nat) :
    outcome (vfs.read promotion answers file fd size) =
      outcome (other.read promotion answers file fd size) := by
  have hfound := (vfs.multiLevelCache.get_spec promotion fd.path answers.getTime).1
  have hfound' := (other.multiLevelCache.get_spec promotion fd.path answers.getTime).1
  rw [h.delivered] at hfound
  unfold VirtualFileSystem.read
  by_cases hzero : size = 0
  · rw [if_pos hzero, if_pos hzero]
    rfl
  · rw [if_neg hzero, if_neg hzero]
    simp only [hfound, hfound']
    cases other.multiLevelCache.delivered fd.path with
    | some chunk =>
      simp only [readCached, Option.bind_eq_bind]
      cases copyBytes chunk fd.position (min size (Word64.sub chunk.length fd.position)) <;> rfl
    | none =>
      simp only
      split
      · apply outcome_readMapped
        exact h.mappedFiles
      · apply outcome_readBuffered
        exact h.bufferPool

/-- The cache delivers the bytes it delivered before, and so does `read`. -/
structure Unchanged (vfs other : VirtualFileSystem) : Prop where
  get : ∀ path now, (other.multiLevelCache.get promotion path now).2 =
    (vfs.multiLevelCache.get promotion path now).2
  read : ∀ answers file fd size, outcome (other.read promotion answers file fd size) =
    outcome (vfs.read promotion answers file fd size)

theorem Unchanged.delivered {vfs other : VirtualFileSystem} (h : Unchanged promotion vfs other) :
    other.multiLevelCache.delivered = vfs.multiLevelCache.delivered := by
  funext path
  have hget := h.get path 0
  rw [(MultiLevelCache.get_spec _ promotion path 0).1,
    (MultiLevelCache.get_spec _ promotion path 0).1] at hget
  exact hget

/-- The background pass leaves what is delivered unchanged exactly when
`compress` makes no inactive file's bytes shorter. -/
theorem compressInactiveFiles_unchanged_iff (vfs : VirtualFileSystem)
    (answers : Nat → CompressionAnswers) (now : Nat) :
    Unchanged promotion vfs (vfs.compressInactiveFiles zlib promotion answers now) ↔
      Incompressible zlib answers 0 (inactiveFiles vfs.multiLevelCache now)
        vfs.multiLevelCache.delivered := by
  rw [← compressInactiveFiles_delivered_iff zlib promotion]
  constructor
  · intro h
    exact h.delivered
  · intro hdelivered
    have hview : SameView (vfs.compressInactiveFiles zlib promotion answers now) vfs :=
      ⟨rfl, rfl, hdelivered⟩
    refine ⟨fun path now => ?_, fun answers file fd size => hview.outcome_read promotion answers file fd size⟩
    rw [(MultiLevelCache.get_spec _ promotion path now).1,
      (MultiLevelCache.get_spec _ promotion path now).1]
    exact congrFun hdelivered path

def zeros : Data := List.replicate 4096 0

/-- The stream that zlib makes of `zeros` at its best compression. -/
def zerosStream : Data :=
  [0x78, 0xda, 0xed, 0xc1, 0x01, 0x0d, 0x00, 0x00, 0x00, 0xc2, 0xa0, 0xf7, 0x4f, 0x6d, 0x0f, 0x07, 0x14,
    0x00, 0x00, 0x00, 0xf0, 0x6e, 0x10, 0x00, 0x00, 0x01]

/-- A code that agrees with zlib on `zeros`, and keeps other data after a byte
that begins no zlib stream. -/
def zerosZlib : Zlib where
  deflate data := if data = zeros then zerosStream else 0 :: data
  inflate stream := if stream = zerosStream then some zeros else stream.tail?
  inflate_deflate data := by
    by_cases hzeros : data = zeros
    · rw [if_pos hzeros, if_pos rfl, hzeros]
    · have hne : 0 :: data ≠ zerosStream := by
        intro heq
        exact absurd (List.cons.inj heq).1 (by decide)
      rw [if_neg hzeros, if_neg hne]
      rfl

theorem length_zeros : zeros.length = 4096 := by rw [zeros, List.length_replicate]

theorem stream_zeros : stream zerosZlib zeros = zerosStream := by
  have hroom : CompressionManager.avail zeros = 4096 := by
    simp [CompressionManager.avail, length_zeros]
  have htake : zeros.take 4096 = zeros := List.take_of_length_le (Nat.le_of_eq length_zeros)
  rw [stream, hroom, htake, zerosZlib]
  simp only [if_true]

/-- A file system that has cached `zeros` at time 0. -/
def cachedZeros : VirtualFileSystem :=
  { constructed with multiLevelCache := MultiLevelCache.constructed.put "f" zeros false 0 }

/-- An hour and a minute later the pass replaces the zeros by their stream. -/
theorem pass_delivers_stream :
    ¬ Unchanged .stay cachedZeros
      (cachedZeros.compressInactiveFiles zerosZlib .stay (fun _ => ⟨true, 0, 0⟩) (61 * MINUTE)) := by
  intro h
  have hincompressible :=
    (compressInactiveFiles_delivered_iff zerosZlib .stay cachedZeros _ _).mp h.delivered
  have hcached : cachedZeros.multiLevelCache.delivered "f" = some zeros := by
    have hput : cachedZeros.multiLevelCache.delivered =
        Function.update MultiLevelCache.constructed.delivered "f" (some zeros) :=
      MultiLevelCache.put_spec (List.cons_ne_nil _ _) "f" zeros false 0
    rw [hput, Function.update_self]
  refine hincompressible 0 "f" zeros ?_ hcached ?_
  · rfl
  · refine ⟨?_, rfl, ?_, ?_⟩
    · rw [length_zeros]
      exact Nat.le_refl _
    · rw [stream_zeros, CompressionManager.avail, length_zeros]
      decide
    · rw [stream_zeros, length_zeros]
      decide

end Kernel.FileSystem.VirtualFileSystem
