import KernelcModerne.Filesystem.Compression
import KernelcModerne.Lib.Word64

namespace Kernel.FileSystem

structure Buffer where
  in_use : Bool

structure BufferPool where
  pool : List Buffer

namespace BufferPool

def BUFFER_SIZE : Nat := 4096
def POOL_SIZE : Nat := 1024

def constructed : BufferPool where
  pool := List.replicate POOL_SIZE { in_use := false }

/-- The first free buffer, by its position in the pool. -/
def acquire (self : BufferPool) : Option (BufferPool × Nat) :=
  (self.pool.findIdx? fun buffer => !buffer.in_use).map fun i =>
    ({ pool := self.pool.modify i fun buffer => { buffer with in_use := true } }, i)

def release (self : BufferPool) (buffer : Nat) : BufferPool where
  pool := self.pool.modify buffer fun buffer => { buffer with in_use := false }

/-- `pool.resize(pool.size() + size)`, where the sum wraps. -/
def expand (self : BufferPool) (size : Nat) : BufferPool where
  pool :=
    let count := Word64.add self.pool.length size
    self.pool.take count ++ List.replicate (count - self.pool.length) { in_use := false }

end BufferPool

/-- `mapped_region` is null or shows the bytes of the file. -/
structure MemoryMappedFile where
  mapped_region : Option Data := none
  file_size : Nat := 0

/-- What the system answers during one call of `read`: whether the file opens
for its size, for the mapping and for reading, whether `fstat` and `mmap`
succeed, and the times at which the cache is read and written. -/
structure ReadAnswers where
  sizeOpens : Bool
  mapOpens : Bool
  mapStats : Bool
  maps : Bool
  fileOpens : Bool
  getTime : Nat
  putTime : Nat

/-- `map` on a file with the bytes `file`, as POSIX systems compile it. -/
def MemoryMappedFile.map (self : MemoryMappedFile) (answers : ReadAnswers) (file : Data) :
    MemoryMappedFile × Bool :=
  if !answers.mapOpens then (self, false)
  else if !answers.mapStats then (self, false)
  else
    let sized := { self with file_size := file.length }
    if !answers.maps then ({ sized with mapped_region := none }, false)
    else ({ sized with mapped_region := some file }, true)

structure FileDescriptor where
  path : String
  position : Nat

structure VirtualFileSystem where
  bufferPool : BufferPool
  multiLevelCache : MultiLevelCache
  mappedFiles : AList fun _ : String => MemoryMappedFile

/-- What a call of `read` returns, and the bytes it has copied to the buffer. -/
structure ReadResult where
  returned : Int
  copied : Data
  deriving DecidableEq

namespace VirtualFileSystem

def constructed : VirtualFileSystem where
  bufferPool := .constructed
  multiLevelCache := .constructed
  mappedFiles := ∅

def MAP_THRESHOLD : Nat := 1024 * 1024

/-- `read` ends: the file system and the descriptor it leaves, and its result.
There is none when the call reads outside an object. -/
abbrev ReadEnd := Option (VirtualFileSystem × FileDescriptor × ReadResult)

def fails (self : VirtualFileSystem) (fd : FileDescriptor) : ReadEnd := some (self, fd, ⟨-1, []⟩)

/-- The bytes `[position, position + copySize)` of an object, as `memcpy` copies
them. -/
def copyBytes (source : Data) (position copySize : Nat) : Option Data :=
  if position + copySize ≤ source.length then some ((source.drop position).take copySize) else none

/-- `read` when the cache has the path. -/
def readCached (self : VirtualFileSystem) (fd : FileDescriptor) (cachedData : Data) (size : Nat) :
    ReadEnd := do
  let copySize := min size (Word64.sub cachedData.length fd.position)
  let copied ← copyBytes cachedData fd.position copySize
  some (self, { fd with position := fd.position + copySize }, ⟨copySize, copied⟩)

/-- `read` from a mapped file: nothing at its end, else the bytes from the
position on, which go to the cache too. -/
def readRegion (self : VirtualFileSystem) (answers : ReadAnswers) (mappedFile : MemoryMappedFile)
    (fd : FileDescriptor) (size : Nat) : ReadEnd :=
  if fd.position ≥ mappedFile.file_size then some (self, fd, ⟨0, []⟩)
  else do
    let copySize := min size (mappedFile.file_size - fd.position)
    let mappedData ← mappedFile.mapped_region
    let copied ← copyBytes mappedData fd.position copySize
    let self := { self with multiLevelCache := self.multiLevelCache.put fd.path copied false answers.putTime }
    some (self, { fd with position := fd.position + copySize }, ⟨copySize, copied⟩)

/-- `read` through the mapping of the file, which the first such call makes. A
mapping that fails stays in `mappedFiles`. -/
def readMapped (self : VirtualFileSystem) (answers : ReadAnswers) (file : Data) (fd : FileDescriptor)
    (size : Nat) : ReadEnd :=
  match self.mappedFiles.lookup fd.path with
  | some mappedFile => self.readRegion answers mappedFile fd size
  | none =>
    let (mappedFile, mapped) := ({} : MemoryMappedFile).map answers file
    let self := { self with mappedFiles := self.mappedFiles.insert fd.path mappedFile }
    if !mapped then self.fails fd
    else self.readRegion answers mappedFile fd size

/-- `read` through a buffer of the pool. -/
def readBuffered (self : VirtualFileSystem) (answers : ReadAnswers) (file : Data) (fd : FileDescriptor)
    (size : Nat) : ReadEnd :=
  match self.bufferPool.acquire with
  | none => self.fails fd
  | some (acquired, buffer) =>
    let self := { self with bufferPool := acquired.release buffer }
    if !answers.fileOpens then self.fails fd
    else
      let bytes := (file.drop fd.position).take BufferPool.BUFFER_SIZE
      let bytesRead := bytes.length
      if bytesRead > 0 then
        let copySize := min bytesRead size
        let copied := bytes.take copySize
        let self := { self with multiLevelCache := self.multiLevelCache.put fd.path copied false answers.putTime }
        some (self, { fd with position := fd.position + copySize }, ⟨copySize, copied⟩)
      else some (self, fd, ⟨0, []⟩)

def getFileSize (answers : ReadAnswers) (file : Data) : Nat :=
  if answers.sizeOpens then file.length else 0

/-- `read`, where `file` is the content of the descriptor's file. -/
def read (self : VirtualFileSystem) (promotion : Promotion) (answers : ReadAnswers) (file : Data)
    (fd : FileDescriptor) (size : Nat) : ReadEnd :=
  if size = 0 then self.fails fd
  else
    let (multiLevelCache, cached) := self.multiLevelCache.get promotion fd.path answers.getTime
    let self := { self with multiLevelCache }
    match cached with
    | some cachedData => self.readCached fd cachedData size
    | none =>
      if getFileSize answers file > MAP_THRESHOLD then self.readMapped answers file fd size
      else self.readBuffered answers file fd size

/-- What happens while one inactive file is compressed: whether `deflateInit`
succeeds, and the times at which the cache is read and written. -/
structure CompressionAnswers where
  deflateInit : Bool
  getTime : Nat
  putTime : Nat

/-- A minute of the clock, which counts nanoseconds. -/
def MINUTE : Nat := 60 * 10 ^ 9

/-- The paths of the entries not read for more than an hour. -/
def inactiveFiles (cache : MultiLevelCache) (now : Nat) : List String :=
  (cache.getAllEntries.filter fun (_, entry) => (now - entry.timestamp) / MINUTE > 60).map Prod.fst

/-- The body of the compression loop. -/
def compressFile (zlib : Zlib) (promotion : Promotion) (answers : CompressionAnswers)
    (cache : MultiLevelCache) (path : String) : MultiLevelCache :=
  match cache.get promotion path answers.getTime with
  | (cache, some data) =>
    let compressed := CompressionManager.compress zlib answers.deflateInit data
    if compressed.length < data.length then cache.put path compressed true answers.putTime
    else cache
  | (cache, none) => cache

/-- The compression loop, from file number `i` on. -/
def compressFiles (zlib : Zlib) (promotion : Promotion) (answers : Nat → CompressionAnswers) (i : Nat) :
    List String → MultiLevelCache → MultiLevelCache
  | [], cache => cache
  | path :: rest, cache =>
    compressFiles zlib promotion answers (i + 1) rest
      (compressFile zlib promotion (answers i) cache path)

def compressInactiveFiles (self : VirtualFileSystem) (zlib : Zlib) (promotion : Promotion)
    (answers : Nat → CompressionAnswers) (now : Nat) : VirtualFileSystem :=
  { self with
    multiLevelCache := compressFiles zlib promotion answers 0 (inactiveFiles self.multiLevelCache now)
      self.multiLevelCache }

end VirtualFileSystem

end Kernel.FileSystem
