import Mathlib.Algebra.Group.Nat.Defs
import KernelcModerne.Filesystem.MultiLevelCache

namespace Kernel.FileSystem

/-- zlib: the whole stream that `deflate` makes of the data, and what `inflate`
makes of a stream. -/
structure Zlib where
  deflate : Data → Data
  inflate : Data → Option Data
  inflate_deflate : ∀ data, inflate (deflate data) = some data

namespace CompressionManager

def COMPRESS_THRESHOLD : Nat := 4096

/-- The stream's 32-bit `avail_in` and `avail_out`. -/
def avail (data : Data) : Nat := data.length % 2 ^ 32

/-- The stream that `deflate` makes of the bytes it is given. -/
def stream (zlib : Zlib) (data : Data) : Data := zlib.deflate (data.take (avail data))

/-- `compress`, where `deflateInit` succeeds or not. The stream ends in the
output buffer exactly when the room it is given is enough. -/
def compress (zlib : Zlib) (deflateInit : Bool) (data : Data) : Data :=
  if data.length < COMPRESS_THRESHOLD then data
  else if !deflateInit then data
  else
    let compressed := stream zlib data
    if ¬ compressed.length ≤ avail data then data
    else if compressed.length < data.length then compressed
    else data

/-- The data that `compress` replaces by a stream. -/
def Shrinks (zlib : Zlib) (deflateInit : Bool) (data : Data) : Prop :=
  COMPRESS_THRESHOLD ≤ data.length ∧ deflateInit ∧ (stream zlib data).length ≤ avail data ∧
    (stream zlib data).length < data.length

theorem compress_of_shrinks {zlib : Zlib} {deflateInit : Bool} {data : Data}
    (h : Shrinks zlib deflateInit data) : compress zlib deflateInit data = stream zlib data := by
  obtain ⟨hsize, hinit, hroom, hshort⟩ := h
  rw [compress, if_neg (Nat.not_lt.mpr hsize), if_neg (by simp [hinit]),
    if_neg (Decidable.not_not.mpr hroom), if_pos hshort]

theorem compress_of_not_shrinks {zlib : Zlib} {deflateInit : Bool} {data : Data}
    (h : ¬ Shrinks zlib deflateInit data) : compress zlib deflateInit data = data := by
  unfold compress
  by_cases hsize : data.length < COMPRESS_THRESHOLD
  · rw [if_pos hsize]
  · rw [if_neg hsize]
    cases hinit : deflateInit with
    | false => rfl
    | true =>
      by_cases hroom : (stream zlib data).length ≤ avail data
      · have hlong : ¬ (stream zlib data).length < data.length :=
          fun hshort => h ⟨Nat.not_lt.mp hsize, hinit, hroom, hshort⟩
        simp [hroom, hlong]
      · simp [hroom]

/-- `compress` makes data smaller or leaves them as they are. -/
theorem length_compress_lt_iff {zlib : Zlib} {deflateInit : Bool} {data : Data} :
    (compress zlib deflateInit data).length < data.length ↔ Shrinks zlib deflateInit data := by
  by_cases h : Shrinks zlib deflateInit data
  · rw [compress_of_shrinks h]
    exact iff_of_true h.2.2.2 h
  · rw [compress_of_not_shrinks h]
    exact iff_of_false (Nat.lt_irrefl _) h

end CompressionManager

end Kernel.FileSystem
