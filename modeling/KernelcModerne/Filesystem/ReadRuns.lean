import KernelcModerne.Filesystem.VirtualFileSystem
import KernelcModerne.Lib.Transition

open Transition

namespace Kernel.FileSystem.VirtualFileSystem

/-- What a call of `read` owes to a descriptor at `position` of a file: unless it
fails, the next bytes of the file, at most `size` of them, and none only at the
end. -/
def Delivers (file : Data) (position size : Nat) (result : ReadEnd) : Prop :=
  ∃ vfs fd out, result = some (vfs, fd, out) ∧ (out.returned = -1 ∨
    ∃ k : Nat, k ≤ size ∧ out.returned = k ∧ out.copied = (file.drop position).take k ∧
      out.copied.length = k ∧ fd.position = position + k ∧ (k = 0 → file.length ≤ position))

/-- The cached chunk has, at `position`, the bytes of the file there, or it ends
there with the file. -/
def ChunkServes (file chunk : Data) (position size : Nat) : Prop :=
  (position < chunk.length ∧ (chunk.drop position).take (min size (chunk.length - position)) =
    (file.drop position).take (min size (chunk.length - position))) ∨
  (position = chunk.length ∧ file.length ≤ position)

theorem delivers_none {file : Data} {position size : Nat} : ¬ Delivers file position size none := by
  rintro ⟨_, _, _, hresult, _⟩
  cases hresult

theorem delivers_fails (self : VirtualFileSystem) (fd : FileDescriptor) (file : Data)
    (position size : Nat) : Delivers file position size (self.fails fd) :=
  ⟨self, fd, _, rfl, .inl rfl⟩

/-- A call that returns the `k` bytes it has copied. -/
theorem delivers_some_iff {file copied : Data} {position size k : Nat} {vfs : VirtualFileSystem}
    {fd : FileDescriptor} (hk : k ≤ size) (hlength : copied.length = k)
    (hposition : fd.position = position + k) :
    Delivers file position size (some (vfs, fd, ⟨k, copied⟩)) ↔
      copied = (file.drop position).take k ∧ (k = 0 → file.length ≤ position) := by
  constructor
  · rintro ⟨_, _, _, hresult, hout⟩
    obtain ⟨_, _, rfl⟩ := Prod.mk.inj (Option.some.inj hresult) |>.imp_right Prod.mk.inj
    cases hout with
    | inl hfailed =>
      have hnat : (k : Int) = -1 := hfailed
      omega
    | inr hout =>
      obtain ⟨j, _, hreturned, hcopied, _, _, hend⟩ := hout
      obtain rfl : k = j := Int.ofNat.inj hreturned
      exact ⟨hcopied, hend⟩
  · rintro ⟨hcopied, hend⟩
    exact ⟨vfs, fd, _, rfl, .inr ⟨k, hk, rfl, hcopied, hlength, hposition, hend⟩⟩

theorem copyBytes_of_le {source : Data} {position copySize : Nat}
    (h : position + copySize ≤ source.length) :
    copyBytes source position copySize = some ((source.drop position).take copySize) := if_pos h

theorem length_copied {source : Data} {position copySize : Nat}
    (h : position + copySize ≤ source.length) :
    ((source.drop position).take copySize).length = copySize := by
  rw [List.length_take, List.length_drop]
  omega

/-- A hit delivers exactly when the cached chunk serves the position. -/
theorem readCached_delivers_iff (self : VirtualFileSystem) (path : String) {file chunk : Data}
    {position size : Nat} (hsize : 0 < size) (hchunk : chunk.length < 2 ^ 64) :
    Delivers file position size (self.readCached ⟨path, position⟩ chunk size) ↔
      ChunkServes file chunk position size := by
  by_cases hposition : position ≤ chunk.length
  · have hsub : Word64.sub chunk.length position = chunk.length - position :=
      Word64.sub_eq_of_le hposition hchunk
    have hle : position + min size (chunk.length - position) ≤ chunk.length := by omega
    simp only [readCached, hsub, copyBytes_of_le hle, Option.bind_eq_bind, Option.bind_some]
    rw [delivers_some_iff (Nat.min_le_left _ _) (length_copied hle) rfl, ChunkServes]
    by_cases hend : position = chunk.length
    · have hnothing : min size (chunk.length - position) = 0 := by omega
      simp [hend]
    · have hsome : ¬ min size (chunk.length - position) = 0 := by omega
      have hlt : position < chunk.length := by omega
      simp [hsome, hlt, hend]
  · have hcopy (copySize : Nat) : copyBytes chunk position copySize = none := by
      unfold copyBytes
      rw [if_neg (by omega)]
    simp only [readCached, hcopy, Option.bind_eq_bind, Option.bind_none]
    refine iff_of_false delivers_none ?_
    unfold ChunkServes
    omega

/-- What holds of the file system between calls: the cached chunk of the path
came from one read, and its mapping shows the file or has failed. -/
structure Tracked (path : String) (file : Data) (vfs : VirtualFileSystem) : Prop where
  levels : vfs.multiLevelCache.levels ≠ []
  chunk : ∀ chunk, vfs.multiLevelCache.delivered path = some chunk → chunk.length < 2 ^ 64
  mapped : ∀ mappedFile, vfs.mappedFiles.lookup path = some mappedFile →
    (mappedFile.mapped_region = some file ∧ mappedFile.file_size = file.length) ∨
      (mappedFile.mapped_region = none ∧
        (mappedFile.file_size = 0 ∨ mappedFile.file_size = file.length))

variable {path : String} {file : Data}

theorem constructed_tracked (path : String) (file : Data) : Tracked path file constructed where
  levels := List.cons_ne_nil _ _
  chunk chunk h := by
    have hempty : constructed.multiLevelCache.delivered path = none :=
      MultiLevelCache.delivered_constructed path
    rw [hempty] at h
    cases h
  mapped _ h := by simp [constructed] at h

/-- What a call leaves behind is tracked, if it ends. -/
def LeavesTracked (path : String) (file : Data) (result : ReadEnd) : Prop :=
  ∀ vfs fd out, result = some (vfs, fd, out) → Tracked path file vfs

theorem leavesTracked_none : LeavesTracked path file none := by
  intro vfs fd out heq
  cases heq

theorem Tracked.leaves {self : VirtualFileSystem} (h : Tracked path file self) (fd : FileDescriptor)
    (out : ReadResult) : LeavesTracked path file (some (self, fd, out)) := by
  intro vfs fd' out' heq
  obtain ⟨rfl, _⟩ := Prod.mk.inj (Option.some.inj heq)
  exact h

/-- Caching a chunk no longer than a `size_t` counts. -/
theorem Tracked.put {self : VirtualFileSystem} (h : Tracked path file self) {chunk : Data}
    (hchunk : chunk.length < 2 ^ 64) (time : Nat) :
    Tracked path file
      { self with multiLevelCache := self.multiLevelCache.put path chunk false time } where
  levels := by
    rw [← List.length_pos_iff, MultiLevelCache.length_put]
    exact List.length_pos_iff.mpr h.levels
  chunk found hfound := by
    rw [MultiLevelCache.put_spec h.levels, Function.update_self, Option.some.injEq] at hfound
    exact hfound ▸ hchunk
  mapped := h.mapped

theorem Tracked.get {self : VirtualFileSystem} (h : Tracked path file self) (promotion : Promotion)
    (time : Nat) :
    Tracked path file
      { self with multiLevelCache := (self.multiLevelCache.get promotion path time).1 } where
  levels := by
    rw [← List.length_pos_iff, MultiLevelCache.length_get]
    exact List.length_pos_iff.mpr h.levels
  chunk found hfound := by
    rw [(self.multiLevelCache.get_spec promotion path time).2] at hfound
    exact h.chunk found hfound
  mapped := h.mapped

theorem Tracked.readCached {self : VirtualFileSystem} (h : Tracked path file self)
    (fd : FileDescriptor) (chunk : Data) (size : Nat) :
    LeavesTracked path file (self.readCached fd chunk size) := by
  cases hcopy : copyBytes chunk fd.position (min size (Word64.sub chunk.length fd.position)) with
  | none =>
    simp only [VirtualFileSystem.readCached, hcopy, Option.bind_eq_bind, Option.bind_none]
    exact leavesTracked_none
  | some copied =>
    simp only [VirtualFileSystem.readCached, hcopy, Option.bind_eq_bind, Option.bind_some]
    exact h.leaves _ _

/-- A miss that reads through the pool delivers. -/
theorem Tracked.readBuffered {self : VirtualFileSystem} (h : Tracked path file self)
    (answers : ReadAnswers) (position : Nat) {size : Nat} (hsize : 0 < size) :
    Delivers file position size (self.readBuffered answers file ⟨path, position⟩ size) ∧
      LeavesTracked path file (self.readBuffered answers file ⟨path, position⟩ size) := by
  unfold VirtualFileSystem.readBuffered
  cases self.bufferPool.acquire with
  | none => exact ⟨delivers_fails _ _ _ _ _, h.leaves _ _⟩
  | some acquired =>
    obtain ⟨acquired, buffer⟩ := acquired
    have hpool : Tracked path file { self with bufferPool := acquired.release buffer } :=
      ⟨h.levels, h.chunk, h.mapped⟩
    simp only
    split
    · exact ⟨delivers_fails _ _ _ _ _, hpool.leaves _ _⟩
    · have hbytes : ((file.drop position).take BufferPool.BUFFER_SIZE).length =
          min BufferPool.BUFFER_SIZE (file.length - position) := by
        rw [List.length_take, List.length_drop]
      rw [hbytes]
      split
      · have hlength : (((file.drop position).take BufferPool.BUFFER_SIZE).take
            (min (min BufferPool.BUFFER_SIZE (file.length - position)) size)).length =
            min (min BufferPool.BUFFER_SIZE (file.length - position)) size := by
          rw [List.length_take, hbytes]
          omega
        constructor
        · rw [delivers_some_iff (Nat.min_le_right _ _) hlength rfl, List.take_take]
          constructor
          · congr 1
            omega
          · omega
        · refine Tracked.leaves (hpool.put ?_ answers.putTime) _ _
          rw [hlength]
          unfold BufferPool.BUFFER_SIZE
          omega
      · refine ⟨⟨_, _, _, rfl, .inr ⟨0, ?_⟩⟩, hpool.leaves _ _⟩
        unfold BufferPool.BUFFER_SIZE at *
        simp
        omega

/-- A mapping that shows the file delivers. -/
theorem Tracked.readRegion_shown {self : VirtualFileSystem} (h : Tracked path file self)
    (answers : ReadAnswers) {mappedFile : MemoryMappedFile} (hregion : mappedFile.mapped_region = some file)
    (hfileSize : mappedFile.file_size = file.length) (position : Nat) {size : Nat} (hsize : 0 < size)
    (hsize64 : size < 2 ^ 64) :
    Delivers file position size (self.readRegion answers mappedFile ⟨path, position⟩ size) ∧
      LeavesTracked path file (self.readRegion answers mappedFile ⟨path, position⟩ size) := by
  unfold VirtualFileSystem.readRegion
  rw [hfileSize, hregion]
  by_cases hend : position ≥ file.length
  · rw [if_pos hend]
    exact ⟨⟨_, _, _, rfl, .inr ⟨0, Nat.zero_le _, rfl, rfl, rfl, rfl, fun _ => hend⟩⟩, h.leaves _ _⟩
  · have hle : position + min size (file.length - position) ≤ file.length := by omega
    rw [if_neg hend]
    simp only [Option.bind_eq_bind, Option.bind_some, copyBytes_of_le hle]
    constructor
    · rw [delivers_some_iff (Nat.min_le_left _ _) (length_copied hle) rfl]
      exact ⟨rfl, by omega⟩
    · refine Tracked.leaves (h.put ?_ answers.putTime) _ _
      rw [length_copied hle]
      omega

/-- A mapping that failed delivers only at the end of the file. -/
theorem Tracked.readRegion_failed {self : VirtualFileSystem} (h : Tracked path file self)
    (answers : ReadAnswers) {mappedFile : MemoryMappedFile} (hregion : mappedFile.mapped_region = none)
    (hfileSize : mappedFile.file_size = 0 ∨ mappedFile.file_size = file.length) (position : Nat)
    {size : Nat} :
    (Delivers file position size (self.readRegion answers mappedFile ⟨path, position⟩ size) ↔
      file.length ≤ position) ∧
      LeavesTracked path file (self.readRegion answers mappedFile ⟨path, position⟩ size) := by
  unfold VirtualFileSystem.readRegion
  rw [hregion]
  by_cases hend : position ≥ mappedFile.file_size
  · rw [if_pos hend]
    refine ⟨?_, h.leaves _ _⟩
    refine (delivers_some_iff (k := 0) (Nat.zero_le _) rfl rfl).trans ?_
    simp
  · rw [if_neg hend]
    simp only [Option.bind_eq_bind, Option.bind_none]
    refine ⟨iff_of_false delivers_none ?_, leavesTracked_none⟩
    cases hfileSize with
    | inl hzero => omega
    | inr hlength => omega

/-- The mapping shows the file or has failed. -/
theorem map_cases (answers : ReadAnswers) (file : Data) :
    (∃ mappedFile, ({} : MemoryMappedFile).map answers file = (mappedFile, true) ∧
        mappedFile.mapped_region = some file ∧ mappedFile.file_size = file.length) ∨
      ∃ mappedFile, ({} : MemoryMappedFile).map answers file = (mappedFile, false) ∧
        mappedFile.mapped_region = none ∧
        (mappedFile.file_size = 0 ∨ mappedFile.file_size = file.length) := by
  unfold MemoryMappedFile.map
  cases answers.mapOpens with
  | false => exact .inr ⟨_, rfl, rfl, .inl rfl⟩
  | true =>
    cases answers.mapStats with
    | false => exact .inr ⟨_, rfl, rfl, .inl rfl⟩
    | true =>
      cases answers.maps with
      | false => exact .inr ⟨_, rfl, rfl, .inr rfl⟩
      | true => exact .inl ⟨_, rfl, rfl, rfl⟩

/-- The path has a mapping that failed. -/
def MapFailed (vfs : VirtualFileSystem) (path : String) : Prop :=
  ∃ mappedFile, vfs.mappedFiles.lookup path = some mappedFile ∧ mappedFile.mapped_region = none

/-- A miss that reads the mapped file delivers, unless its mapping failed in an
earlier call. -/
theorem Tracked.readMapped {self : VirtualFileSystem} (h : Tracked path file self)
    (answers : ReadAnswers) (position : Nat) {size : Nat} (hsize : 0 < size) (hsize64 : size < 2 ^ 64) :
    (Delivers file position size (self.readMapped answers file ⟨path, position⟩ size) ↔
      (self.MapFailed path → file.length ≤ position)) ∧
      LeavesTracked path file (self.readMapped answers file ⟨path, position⟩ size) := by
  unfold VirtualFileSystem.readMapped MapFailed
  cases hlookup : self.mappedFiles.lookup path with
  | some mappedFile =>
    cases h.mapped mappedFile hlookup with
    | inl hshown =>
      obtain ⟨hregion, hfileSize⟩ := hshown
      obtain ⟨hdelivers, hleaves⟩ := h.readRegion_shown answers hregion hfileSize position hsize hsize64
      refine ⟨iff_of_true hdelivers ?_, hleaves⟩
      rintro ⟨found, hfound, hnone⟩
      obtain rfl := Option.some.inj hfound
      rw [hregion] at hnone
      cases hnone
    | inr hfailed =>
      obtain ⟨hregion, hfileSize⟩ := hfailed
      obtain ⟨hdelivers, hleaves⟩ := h.readRegion_failed answers hregion hfileSize position
      refine ⟨hdelivers.trans ?_, hleaves⟩
      exact ⟨fun hend _ => hend, fun hend => hend ⟨mappedFile, rfl, hregion⟩⟩
  | none =>
    have hnone : ¬ ∃ mappedFile, (none : Option MemoryMappedFile) = some mappedFile ∧
        mappedFile.mapped_region = none := by
      rintro ⟨_, hfound, _⟩
      cases hfound
    have hinsert (mappedFile : MemoryMappedFile)
        (hmapped : (mappedFile.mapped_region = some file ∧ mappedFile.file_size = file.length) ∨
          (mappedFile.mapped_region = none ∧
            (mappedFile.file_size = 0 ∨ mappedFile.file_size = file.length))) :
        Tracked path file { self with mappedFiles := self.mappedFiles.insert path mappedFile } := by
      refine ⟨h.levels, h.chunk, fun found hfound => ?_⟩
      rw [AList.lookup_insert, Option.some.injEq] at hfound
      exact hfound ▸ hmapped
    cases map_cases answers file with
    | inl hshown =>
      obtain ⟨mappedFile, hmap, hregion, hfileSize⟩ := hshown
      have hmapped := hinsert mappedFile (.inl ⟨hregion, hfileSize⟩)
      obtain ⟨hdelivers, hleaves⟩ :=
        hmapped.readRegion_shown answers hregion hfileSize position hsize hsize64
      simp only [hmap]
      exact ⟨iff_of_true hdelivers fun hyes => absurd hyes hnone, hleaves⟩
    | inr hfailed =>
      obtain ⟨mappedFile, hmap, hregion, hfileSize⟩ := hfailed
      simp only [hmap]
      exact ⟨iff_of_true (delivers_fails _ _ _ _ _) fun hyes => absurd hyes hnone,
        (hinsert mappedFile (.inr ⟨hregion, hfileSize⟩)).leaves _ _⟩

/-- A file system and the positions of the descriptors of one file. -/
structure Client where
  vfs : VirtualFileSystem
  positions : Nat → Nat

/-- A call of `read` on one of the descriptors. -/
structure Call where
  descriptor : Nat
  size : UInt64
  answers : ReadAnswers

namespace Client

def constructed (positions : Nat → Nat) : Client where
  vfs := .constructed
  positions := positions

variable (promotion : Promotion) (path : String) (file : Data)

def readEnd (client : Client) (call : Call) : ReadEnd :=
  client.vfs.read promotion call.answers file ⟨path, client.positions call.descriptor⟩ call.size.toNat

/-- One call. Nothing is known after one that reads outside an object; the state
is then left as it is. -/
def step (client : Client) (call : Call) : Option Client :=
  match client.readEnd promotion path file call with
  | some (vfs, fd, _) =>
    some { vfs, positions := Function.update client.positions call.descriptor fd.position }
  | none => some client

/-- A call of a run delivers what it owes. -/
def CallDelivers (client : Client) (call : Call) (_ : Client) : Prop :=
  Delivers file (client.positions call.descriptor) call.size.toNat
    (client.readEnd promotion path file call)

/-- What a call asks of the state before it. A cached chunk has the file's bytes
at the descriptor's position or ends there with the file; and when the file is
to be mapped, no earlier mapping has failed, short of its end. -/
def Served (client : Client) (call : Call) : Prop :=
  call.size.toNat ≠ 0 →
    match client.vfs.multiLevelCache.delivered path with
    | some chunk => ChunkServes file chunk (client.positions call.descriptor) call.size.toNat
    | none => MAP_THRESHOLD < getFileSize call.answers file → client.vfs.MapFailed path →
      file.length ≤ client.positions call.descriptor

variable {promotion path file}

theorem readEnd_spec {client : Client} (h : Tracked path file client.vfs) (call : Call) :
    (Delivers file (client.positions call.descriptor) call.size.toNat
        (client.readEnd promotion path file call) ↔ client.Served path file call) ∧
      LeavesTracked path file (client.readEnd promotion path file call) := by
  unfold readEnd Served read
  by_cases hzero : call.size.toNat = 0
  · rw [if_pos hzero]
    exact ⟨iff_of_true (delivers_fails _ _ _ _ _) fun hne => absurd hzero hne, h.leaves _ _⟩
  · have hsize : 0 < call.size.toNat := Nat.pos_of_ne_zero hzero
    obtain ⟨hfound, hdelivered⟩ :=
      client.vfs.multiLevelCache.get_spec promotion path call.answers.getTime
    have hget := h.get promotion call.answers.getTime
    rw [if_neg hzero, imp_iff_right hzero, ← hfound]
    cases hresult : client.vfs.multiLevelCache.get promotion path call.answers.getTime with
    | mk multiLevelCache cached =>
      rw [hresult] at hget hfound
      simp only
      cases cached with
      | some chunk =>
        have hchunk := h.chunk chunk hfound.symm
        exact ⟨readCached_delivers_iff _ path hsize hchunk, hget.readCached _ chunk _⟩
      | none =>
        simp only
        by_cases hmap : getFileSize call.answers file > MAP_THRESHOLD
        · rw [if_pos hmap, imp_iff_right hmap]
          exact hget.readMapped call.answers _ hsize call.size.toNat_lt
        · rw [if_neg hmap]
          obtain ⟨hdelivers, hleaves⟩ :=
            hget.readBuffered call.answers (client.positions call.descriptor) hsize
          exact ⟨iff_of_true hdelivers fun hyes => absurd hyes hmap, hleaves⟩

theorem tracked_step {client after : Client} (h : Tracked path file client.vfs) {call : Call}
    (hstep : client.step promotion path file call = some after) : Tracked path file after.vfs := by
  unfold step at hstep
  cases hend : client.readEnd promotion path file call with
  | none =>
    simp only [hend, Option.some.injEq] at hstep
    exact hstep ▸ h
  | some ended =>
    obtain ⟨vfs, fd, out⟩ := ended
    simp only [hend, Option.some.injEq] at hstep
    rw [← hstep]
    exact (readEnd_spec h call).2 vfs fd out hend

/-- All calls of a run deliver what they owe exactly when each of them is served
in the state it is made in. -/
theorem along_delivers_iff_served (promotion : Promotion) (path : String) (file : Data)
    (positions : Nat → Nat) (calls : List Call) :
    Along (step promotion path file) (CallDelivers promotion path file) (constructed positions) calls ↔
      Guarded (step promotion path file) (Served path file) (constructed positions) calls := by
  refine along_iff_along (fun client => Tracked path file client.vfs) ?_ ?_ calls
    (constructed_tracked path file)
  · exact fun client call after h _ => (readEnd_spec h call).1
  · exact fun client call after h hstep _ => tracked_step h hstep

/-- A system on which every call succeeds. -/
def willing : ReadAnswers := ⟨true, true, true, true, true, 0, 0⟩

/-- The second read of a ten-byte file finds the four bytes of the first one in
the cache and reports the end of the file. -/
theorem second_read_ends_early :
    ¬ Along (step .stay "f" [0, 1, 2, 3, 4, 5, 6, 7, 8, 9])
      (CallDelivers .stay "f" [0, 1, 2, 3, 4, 5, 6, 7, 8, 9]) (constructed fun _ => 0)
      [⟨0, 4, willing⟩, ⟨0, 4, willing⟩] := by
  intro h
  obtain ⟨_, h⟩ := h _ rfl
  obtain ⟨hdelivers, _⟩ := h _ rfl
  obtain ⟨vfs, fd, out, hresult, hout⟩ := hdelivers
  obtain ⟨_, _, rfl⟩ := Prod.mk.inj (Option.some.inj hresult) |>.imp_right Prod.mk.inj
  cases hout with
  | inl hfailed => exact absurd hfailed (by decide)
  | inr hout =>
    obtain ⟨k, _, hreturned, _, _, _, hend⟩ := hout
    obtain rfl : 0 = k := Int.ofNat.inj hreturned
    exact absurd (hend rfl) (by decide)

end Client

end Kernel.FileSystem.VirtualFileSystem
