import KernelcModerne.Lib.Doubling
import KernelcModerne.Filesystem.Compression

namespace Kernel.FileSystem.CompressionManager

open Doubling

/-- `std::vector::resize`: new bytes are zero. -/
def resize (buffer : Data) (size : Nat) : Data :=
  buffer.take size ++ List.replicate (size - buffer.length) 0

def writeAt (buffer : Data) (next : Nat) (written : Data) : Data :=
  buffer.take next ++ written ++ buffer.drop (next + written.length)

/-- The loop of `decompress`, where the stream has still `rest` to give and there
is room for `avail_out` bytes from `next_out` on. -/
def inflateInto (rest : Data) (next_out avail_out : Nat) (buffer : Data) : Option Data :=
  let written := writeAt buffer next_out (rest.take avail_out)
  -- Z_STREAM_END
  if rest.length ≤ avail_out then some written
  -- Z_BUF_ERROR: no progress
  else if avail_out = 0 then none
  else
    let currentSize := buffer.length
    inflateInto (rest.drop avail_out) currentSize (currentSize % 2 ^ 32)
      (resize written (currentSize * 2))
termination_by rest.length
decreasing_by simp only [List.length_drop]; omega

/-- `decompress`, where `inflateInit` succeeds or not. -/
def decompress (zlib : Zlib) (inflateInit : Bool) (data : Data) : Data :=
  if !inflateInit then data
  else
    match zlib.inflate (data.take (avail data)) with
    | none => data
    | some out =>
      let decompressed := List.replicate (data.length * 2) 0
      match inflateInto out 0 (avail decompressed) decompressed with
      | none => data
      | some decompressed => resize decompressed out.length

variable {zlib : Zlib} {data out rest buffer result written : Data} {next_out avail_out k size : Nat}

@[simp] theorem length_resize (buffer : Data) (size : Nat) : (resize buffer size).length = size := by
  rw [resize, List.length_append, List.length_take, List.length_replicate]
  omega

theorem resize_of_le (h : size ≤ buffer.length) : resize buffer size = buffer.take size := by
  rw [resize, Nat.sub_eq_zero_of_le h, List.replicate_zero, List.append_nil]

theorem resize_of_length_le (h : buffer.length ≤ size) :
    resize buffer size = buffer ++ List.replicate (size - buffer.length) 0 := by
  rw [resize, List.take_of_length_le h]

/-- A buffer that is doubled has as much room again. -/
theorem resize_double (buffer : Data) :
    resize buffer (buffer.length * 2) = buffer ++ List.replicate buffer.length 0 := by
  rw [resize_of_length_le (by omega)]
  congr 2
  omega

theorem take_resize (hk : k ≤ size) (h : k ≤ buffer.length) : (resize buffer size).take k = buffer.take k := by
  rw [resize, List.take_append_of_le_length (by rw [List.length_take]; omega), List.take_take,
    Nat.min_eq_left hk]

/-- Resizing takes zeros where the bytes end. -/
theorem resize_eq_take (h : size ≤ buffer.length + k) :
    resize buffer size = (buffer ++ List.replicate k 0).take size := by
  rw [resize, List.take_append, List.take_replicate, Nat.min_eq_left (by omega)]

theorem length_writeAt (h : next_out + written.length ≤ buffer.length) :
    (writeAt buffer next_out written).length = buffer.length := by
  simp only [writeAt, List.length_append, List.length_take, List.length_drop]
  omega

theorem take_writeAt (hk : k ≤ next_out) (h : next_out ≤ buffer.length) :
    (writeAt buffer next_out written).take k = buffer.take k := by
  rw [writeAt, List.append_assoc, List.take_append_of_le_length (by rw [List.length_take]; omega),
    List.take_take, Nat.min_eq_left hk]

/-- What is written behind the data that are in the buffer already. -/
theorem writeAt_length (front written : Data) (room : Nat) :
    writeAt (front ++ List.replicate room 0) front.length written =
      front ++ written ++ List.replicate (room - written.length) 0 := by
  rw [writeAt, List.take_left, List.drop_append, List.drop_eq_nil_of_le (Nat.le_add_right _ _),
    List.nil_append, List.drop_replicate, Nat.add_sub_cancel_left]

theorem inflateInto_of_le (h : rest.length ≤ avail_out) :
    inflateInto rest next_out avail_out buffer = some (writeAt buffer next_out rest) := by
  rw [inflateInto, if_pos h, List.take_of_length_le h]

theorem inflateInto_zero (h : 0 < rest.length) : inflateInto rest next_out 0 buffer = none := by
  rw [inflateInto, if_neg (Nat.not_le.mpr h), if_pos rfl]

theorem inflateInto_of_lt (hroom : avail_out ≠ 0) (h : avail_out < rest.length) :
    inflateInto rest next_out avail_out buffer =
      inflateInto (rest.drop avail_out) buffer.length (buffer.length % 2 ^ 32)
        (resize (writeAt buffer next_out (rest.take avail_out)) (buffer.length * 2)) := by
  rw [inflateInto, if_neg (Nat.not_le.mpr h), if_neg hroom]

/-- The bytes in front of `next_out` stay as they are. -/
theorem take_inflateInto (hk : k ≤ next_out) (hroom : next_out + avail_out ≤ buffer.length)
    (h : inflateInto rest next_out avail_out buffer = some result) :
    k ≤ result.length ∧ result.take k = buffer.take k := by
  induction rest, next_out, avail_out, buffer using inflateInto.induct with
  | case1 rest next_out avail_out buffer hend =>
    rw [inflateInto_of_le hend, Option.some_inj] at h
    rw [← h, length_writeAt (by omega)]
    exact ⟨by omega, take_writeAt hk (by omega)⟩
  | case2 rest next_out buffer hmore =>
    rw [inflateInto_zero (by omega)] at h
    cases h
  | case3 rest next_out avail_out buffer written hmore hpos currentSize ih =>
    rw [inflateInto_of_lt hpos (by omega)] at h
    have hwritten : next_out + (rest.take avail_out).length ≤ buffer.length := by
      rw [List.length_take]; omega
    have hlength : written.length = buffer.length := length_writeAt hwritten
    have hnext : currentSize + currentSize % 2 ^ 32 ≤ currentSize * 2 := by
      have hmod := Nat.mod_le currentSize (2 ^ 32)
      omega
    obtain ⟨hle, htake⟩ := ih (by omega) (by rwa [length_resize]) h
    refine ⟨hle, ?_⟩
    rw [htake, take_resize (by omega) (by omega), take_writeAt hk (by omega)]

/-- The room that `avail_out`, a 32-bit number, ever gives to a buffer that starts with
`size` bytes and doubles: 2^32 bytes for each bit set in `size`. -/
def room (size : Nat) : Nat := 2 ^ 32 * ones 32 (size % 2 ^ 32)

theorem mod_le_room (size : Nat) : size % 2 ^ 32 ≤ room size :=
  le_mul_ones (Nat.mod_lt _ (Nat.two_pow_pos 32))

theorem room_double (size : Nat) :
    2 * (size % 2 ^ 32) + room (size * 2) = size * 2 % 2 ^ 32 + room size := by
  have hmod : 2 * (size % 2 ^ 32) % 2 ^ 32 = size * 2 % 2 ^ 32 := by
    rw [Nat.mul_mod_mod, Nat.mul_comm]
  have h := double_eq (w := 31) (Nat.mod_lt size (Nat.two_pow_pos 32))
  rwa [hmod] at h

/-- While the buffer grows, the loop gets stuck on a room of no bytes exactly when
there is more to give than room. -/
theorem inflateInto_eq_none_iff (hbuffer : buffer.length = size * 2) (hrest : 0 < rest.length) :
    inflateInto rest next_out (size % 2 ^ 32) buffer = none ↔ room size < rest.length + size % 2 ^ 32 := by
  induction h : rest.length using Nat.strong_induction_on generalizing rest next_out buffer size with
  | _ n ih =>
    subst h
    have hdouble := room_double size
    have hnext := mod_le_room (size * 2)
    by_cases hend : rest.length ≤ size % 2 ^ 32
    · rw [inflateInto_of_le hend]
      exact iff_of_false (by simp) (by omega)
    · by_cases hzero : size % 2 ^ 32 = 0
      · rw [hzero, inflateInto_zero hrest]
        refine iff_of_true rfl ?_
        have hnone : room size = 0 := by
          rw [room, hzero]
          decide
        omega
      · rw [inflateInto_of_lt hzero (by omega), hbuffer,
          ih _ (by rw [List.length_drop]; omega) (length_resize _ _) (by rw [List.length_drop]; omega) rfl,
          List.length_drop]
        omega

/-- The first call included. -/
theorem inflateInto_avail_eq_none_iff :
    inflateInto out 0 (avail buffer) buffer = none ↔ room buffer.length < out.length := by
  have hle := mod_le_room buffer.length
  by_cases hend : out.length ≤ avail buffer
  · rw [inflateInto_of_le hend]
    exact iff_of_false (by simp) (by rw [avail] at hend; omega)
  · by_cases hzero : avail buffer = 0
    · rw [hzero, inflateInto_zero (by omega)]
      refine iff_of_true rfl ?_
      have hnone : room buffer.length = 0 := by
        rw [room, ← avail, hzero]
        decide
      omega
    · rw [inflateInto_of_lt hzero (by omega),
        inflateInto_eq_none_iff (length_resize _ _) (by rw [List.length_drop]; omega), List.length_drop]
      rw [avail] at hend
      rw [avail]
      omega

/-- Where the buffer stays below 2^32 bytes, each part of the output follows the one before. -/
theorem take_inflateInto_append (hfront : written ≠ []) (hsize : (written ++ rest).length ≤ 2 ^ 32)
    (h : inflateInto rest written.length (written.length % 2 ^ 32)
      (written ++ List.replicate written.length 0) = some result) :
    result.take (written ++ rest).length = written ++ rest := by
  induction hn : rest.length using Nat.strong_induction_on generalizing rest written with
  | _ n ih =>
    subst hn
    have hpos : 0 < written.length := List.length_pos_iff.mpr hfront
    rw [List.length_append] at hsize
    by_cases hend : rest.length ≤ written.length % 2 ^ 32
    · rw [inflateInto_of_le hend, Option.some_inj, writeAt_length] at h
      rw [← h, List.take_left']
      rfl
    · have hmod : written.length % 2 ^ 32 = written.length := by
        by_cases hfull : written.length < 2 ^ 32
        · exact Nat.mod_eq_of_lt hfull
        · omega
      have hpart : (rest.take written.length).length = written.length := by
        rw [List.length_take]
        omega
      rw [hmod, inflateInto_of_lt (by omega) (by omega), writeAt_length, hpart, Nat.sub_self,
        List.replicate_zero, List.append_nil] at h
      have hlength : (written ++ List.replicate written.length (0 : UInt8)).length =
          (written ++ rest.take written.length).length := by
        rw [List.length_append, List.length_append, List.length_replicate, hpart]
      have hwhole : (written ++ rest.take written.length) ++ rest.drop written.length = written ++ rest := by
        rw [List.append_assoc, List.take_append_drop]
      rw [hlength, resize_double] at h
      have hdone := ih (rest.drop written.length).length (by rw [List.length_drop]; omega)
        (by simp [hfront]) (by rw [hwhole, List.length_append]; omega) h rfl
      rwa [hwhole] at hdone

/-- From byte `i` on the data are zero. -/
def ZeroFrom (i : Nat) (data : Data) : Prop := ∀ byte ∈ data.drop i, byte = 0

theorem resize_take_eq_iff : resize (out.take k) out.length = data ↔
    out.length = data.length ∧ out.take k = data.take k ∧ ZeroFrom k data := by
  constructor
  · rintro rfl
    have hlength : (out.take k).length = min k out.length := List.length_take
    rw [ZeroFrom, length_resize, resize_of_length_le (by omega)]
    refine ⟨rfl, ?_, ?_⟩
    · have hnone : min (k - (out.take k).length) (out.length - (out.take k).length) = 0 := by omega
      rw [List.take_append, List.take_replicate, hnone, List.replicate_zero, List.append_nil,
        List.take_take, Nat.min_self]
    · intro byte hbyte
      rw [List.drop_append, List.drop_eq_nil_of_le (by omega), List.nil_append, List.drop_replicate] at hbyte
      exact List.eq_of_mem_replicate hbyte
  · rintro ⟨hlength, htake, hzero⟩
    have hdrop : data.drop k = List.replicate (out.length - (out.take k).length) 0 := by
      refine List.eq_replicate_iff.mpr ⟨?_, hzero⟩
      rw [List.length_drop, List.length_take]
      omega
    rw [resize_of_length_le (by rw [List.length_take]; omega), ← hdrop, htake, List.take_append_drop]

theorem decompress_of_none (h : zlib.inflate (data.take (avail data)) = none) :
    decompress zlib true data = data := by
  simp [decompress, h]

theorem decompress_of_stuck (h : zlib.inflate (data.take (avail data)) = some out)
    (hroom : room (data.length * 2) < out.length) : decompress zlib true data = data := by
  have hnone : inflateInto out 0 (avail (List.replicate (data.length * 2) 0))
      (List.replicate (data.length * 2) 0) = none := by
    rwa [inflateInto_avail_eq_none_iff, List.length_replicate]
  simp only [decompress, h, hnone]
  rfl

theorem decompress_of_inflateInto (h : zlib.inflate (data.take (avail data)) = some out)
    (hroom : out.length ≤ room (data.length * 2)) :
    ∃ result, inflateInto out 0 (data.length * 2 % 2 ^ 32) (List.replicate (data.length * 2) 0) = some result ∧
      decompress zlib true data = resize result out.length := by
  cases hresult : inflateInto out 0 (avail (List.replicate (data.length * 2) 0))
      (List.replicate (data.length * 2) 0) with
  | none =>
    rw [inflateInto_avail_eq_none_iff, List.length_replicate] at hresult
    omega
  | some result =>
    refine ⟨result, ?_, ?_⟩
    · rw [avail, List.length_replicate] at hresult
      exact hresult
    · simp only [decompress, h, hresult]
      rfl

theorem writeAt_zero (written : Data) (k : Nat) :
    writeAt (List.replicate k 0) 0 written = written ++ List.replicate (k - written.length) 0 :=
  writeAt_length [] written k

/-- Where the output fits into the first buffer, all that comes behind the first
room of `avail_out` bytes is written elsewhere. -/
theorem decompress_of_length_le (h : zlib.inflate (data.take (avail data)) = some out)
    (hroom : out.length ≤ room (data.length * 2)) (hout : out.length ≤ data.length * 2) :
    decompress zlib true data = resize (out.take (data.length * 2 % 2 ^ 32)) out.length := by
  obtain ⟨result, hresult, hdone⟩ := decompress_of_inflateInto h hroom
  have hmod := Nat.mod_le (data.length * 2) (2 ^ 32)
  rw [hdone]
  by_cases hend : out.length ≤ data.length * 2 % 2 ^ 32
  · rw [inflateInto_of_le hend, writeAt_zero, Option.some_inj] at hresult
    rw [← hresult, List.take_of_length_le hend, resize_of_le (by simp), List.take_left',
      resize_of_le (Nat.le_refl _), List.take_length]
    rfl
  · have hpos : data.length * 2 % 2 ^ 32 ≠ 0 := by
      intro hzero
      rw [hzero, inflateInto_zero (by omega)] at hresult
      cases hresult
    have hpart : (out.take (data.length * 2 % 2 ^ 32)).length = data.length * 2 % 2 ^ 32 := by
      rw [List.length_take]
      omega
    rw [inflateInto_of_lt hpos (by omega), List.length_replicate, writeAt_zero] at hresult
    have hfits : data.length * 2 + data.length * 2 % 2 ^ 32 ≤ data.length * 2 * 2 := by omega
    obtain ⟨hle, htake⟩ := take_inflateInto hout (by rwa [length_resize]) hresult
    rw [resize_of_le hle, htake, take_resize (by omega) (by simp; omega),
      resize_eq_take (k := data.length * 2 - (out.take (data.length * 2 % 2 ^ 32)).length) (by omega)]

/-- Where twice the stream is below 2^32 bytes, `decompress` gives all the output. -/
theorem decompress_of_length_lt (h : zlib.inflate (data.take (avail data)) = some out)
    (hroom : out.length ≤ room (data.length * 2)) (hdata : data.length * 2 < 2 ^ 32)
    (hout : out.length ≤ 2 ^ 32) : decompress zlib true data = out := by
  by_cases hfirst : out.length ≤ data.length * 2
  · rw [decompress_of_length_le h hroom hfirst, Nat.mod_eq_of_lt hdata, List.take_of_length_le hfirst,
      resize_of_le (Nat.le_refl _), List.take_length]
  · obtain ⟨result, hresult, hdone⟩ := decompress_of_inflateInto h hroom
    have hpos : data.length * 2 ≠ 0 := by
      intro hzero
      rw [hzero, Nat.zero_mod, inflateInto_zero (by omega)] at hresult
      cases hresult
    have hpart : (out.take (data.length * 2)).length = data.length * 2 := by
      rw [List.length_take]
      omega
    have hgrown : resize (out.take (data.length * 2)) (data.length * 2 * 2) =
        out.take (data.length * 2) ++ List.replicate (data.length * 2) 0 := by
      have hdouble := resize_double (out.take (data.length * 2))
      rwa [hpart] at hdouble
    rw [Nat.mod_eq_of_lt hdata, inflateInto_of_lt hpos (by omega), List.length_replicate, writeAt_zero,
      hpart, Nat.sub_self, List.replicate_zero, List.append_nil, hgrown] at hresult
    have hparts : out.take (data.length * 2) ++ out.drop (data.length * 2) = out := List.take_append_drop _ _
    have hfront : out.take (data.length * 2) ≠ [] := List.ne_nil_of_length_pos (by omega)
    have hwhole : result.take (out.take (data.length * 2) ++ out.drop (data.length * 2)).length =
        out.take (data.length * 2) ++ out.drop (data.length * 2) :=
      take_inflateInto_append hfront (by rwa [hparts]) (by rwa [hpart])
    rw [hparts] at hwhole
    have hlong : out.length ≤ result.length := by
      have hlength := congrArg List.length hwhole
      rw [List.length_take] at hlength
      omega
    rw [hdone, resize_of_le hlong, hwhole]

/-- What makes `decompress` read the stream of the data to its end: `avail_in` and
`avail_out` keep the sizes, or what they lose is zero. -/
structure ReadBack (data compressed : Data) : Prop where
  length_lt : data.length < 2 ^ 32
  avail_out_ne : compressed.length * 2 % 2 ^ 32 ≠ 0
  tail : compressed.length < 2 ^ 31 ∨ ZeroFrom (compressed.length * 2 % 2 ^ 32) data

/-- What makes `decompress` leave the data as they are: they are no stream, the stream
of themselves, or the stream of more than `avail_out` ever has room for. -/
def KeptRaw (zlib : Zlib) (data : Data) : Prop :=
  ∀ out, zlib.inflate (data.take (avail data)) = some out →
    room (data.length * 2) < out.length ∨
      out.length = data.length ∧
        out.take (data.length * 2 % 2 ^ 32) = data.take (data.length * 2 % 2 ^ 32) ∧
        ZeroFrom (data.length * 2 % 2 ^ 32) data

theorem le_room (h : size % 2 ^ 32 ≠ 0) : 2 ^ 32 ≤ room size := by
  have hle := mod_le_room size
  rw [room] at hle ⊢
  have hones : ones 32 (size % 2 ^ 32) ≠ 0 := by
    intro hzero
    rw [hzero] at hle
    omega
  exact Nat.le_mul_of_pos_right _ (Nat.pos_of_ne_zero hones)

theorem room_of_mod_eq_zero (h : size % 2 ^ 32 = 0) : room size = 0 := by
  rw [room, h]
  decide

theorem avail_lt (data : Data) : avail data < 2 ^ 32 := Nat.mod_lt _ (Nat.two_pow_pos 32)

theorem length_take_avail (data : Data) : (data.take (avail data)).length = avail data :=
  List.length_take_of_le (Nat.mod_le _ _)

theorem take_avail (h : data.length < 2 ^ 32) : data.take (avail data) = data := by
  rw [avail, Nat.mod_eq_of_lt h, List.take_length]

/-- Where no room is given, the stream comes back, or nothing. -/
theorem length_decompress_of_mod_eq_zero (h : zlib.inflate (data.take (avail data)) = some out)
    (hzero : data.length * 2 % 2 ^ 32 = 0) : (decompress zlib true data).length ≤ data.length := by
  by_cases hstuck : room (data.length * 2) < out.length
  · rw [decompress_of_stuck h hstuck]
  · rw [room_of_mod_eq_zero hzero] at hstuck
    rw [decompress_of_length_le h (by omega) (by omega), length_resize]
    omega

/-- The stream of the data is read back exactly where it is read to its end. -/
theorem decompress_stream_iff {compressed : Data}
    (h : zlib.inflate compressed = some (data.take (avail data)))
    (hshort : compressed.length < data.length) (hlt : compressed.length < 2 ^ 32) :
    decompress zlib true compressed = data ↔ ReadBack data compressed := by
  have hlength := length_take_avail data
  have havail := avail_lt data
  rw [← take_avail hlt] at h
  by_cases hzero : compressed.length * 2 % 2 ^ 32 = 0
  · have hle := length_decompress_of_mod_eq_zero h hzero
    refine iff_of_false (fun heq => ?_) fun hread => hread.avail_out_ne hzero
    rw [heq] at hle
    omega
  · have hroom := le_room hzero
    by_cases hlow : compressed.length * 2 < 2 ^ 32
    · rw [decompress_of_length_lt h (by omega) hlow (by omega)]
      constructor
      · intro heq
        rw [heq] at hlength
        exact ⟨by omega, hzero, .inl (by omega)⟩
      · exact fun hread => take_avail hread.length_lt
    · rw [decompress_of_length_le h (by omega) (by omega), resize_take_eq_iff]
      constructor
      · rintro ⟨hsize, -, htail⟩
        exact ⟨by omega, hzero, .inr htail⟩
      · intro hread
        rw [take_avail hread.length_lt]
        exact ⟨rfl, rfl, hread.tail.resolve_left (by omega)⟩

theorem decompress_raw_iff : decompress zlib true data = data ↔ KeptRaw zlib data := by
  cases h : zlib.inflate (data.take (avail data)) with
  | none =>
    exact iff_of_true (decompress_of_none h) fun out hout => by rw [h] at hout; cases hout
  | some out =>
    have hkept : KeptRaw zlib data ↔ room (data.length * 2) < out.length ∨
        resize (out.take (data.length * 2 % 2 ^ 32)) out.length = data := by
      rw [resize_take_eq_iff]
      constructor
      · exact fun hkept => hkept out h
      · intro hout out' h'
        rw [h, Option.some_inj] at h'
        rwa [← h']
    rw [hkept]
    by_cases hstuck : room (data.length * 2) < out.length
    · exact iff_of_true (decompress_of_stuck h hstuck) (.inl hstuck)
    · rw [or_iff_right hstuck]
      by_cases hout : out.length ≤ data.length * 2
      · rw [decompress_of_length_le h (by omega) hout]
      · -- the output is longer than the data
        obtain ⟨result, -, hresult⟩ := decompress_of_inflateInto h (by omega)
        rw [hresult]
        refine iff_of_false ?_ ?_ <;>
        · intro heq
          have hsize := congrArg List.length heq
          rw [length_resize] at hsize
          omega

/-- `decompress` undoes `compress` exactly where it reads the stream of the data to
its end and, of data that are no smaller as a stream, takes none for a stream. -/
theorem decompress_compress_iff (zlib : Zlib) (deflateInit inflateInit : Bool) (data : Data) :
    decompress zlib inflateInit (compress zlib deflateInit data) = data ↔
      (Shrinks zlib deflateInit data → inflateInit = true ∧ ReadBack data (stream zlib data)) ∧
      (¬ Shrinks zlib deflateInit data → inflateInit = true → KeptRaw zlib data) := by
  by_cases hshrinks : Shrinks zlib deflateInit data
  · have hshort := hshrinks.2.2.2
    have hlt : (stream zlib data).length < 2 ^ 32 := Nat.lt_of_le_of_lt hshrinks.2.2.1 (avail_lt data)
    rw [compress_of_shrinks hshrinks, and_iff_left (absurd hshrinks), imp_iff_right hshrinks]
    cases inflateInit with
    | false =>
      refine iff_of_false ?_ (by simp)
      intro heq
      rw [show decompress zlib false (stream zlib data) = stream zlib data from rfl] at heq
      rw [heq] at hshort
      omega
    | true =>
      have hinflate : zlib.inflate (stream zlib data) = some (data.take (avail data)) := zlib.inflate_deflate _
      rw [decompress_stream_iff hinflate hshort hlt, and_iff_right rfl]
  · rw [compress_of_not_shrinks hshrinks, and_iff_right fun h => absurd h hshrinks, imp_iff_right hshrinks]
    cases inflateInit with
    | false => exact iff_of_true rfl (by simp)
    | true => rw [decompress_raw_iff, imp_iff_right rfl]

/-- The stream that zlib makes of no data at its best compression. -/
def emptyStream : Data := [0x78, 0xDA, 0x03, 0x00, 0x00, 0x00, 0x00, 0x01]

/-- A code that agrees with zlib on no data and on their stream. -/
def emptyZlib : Zlib where
  deflate
    | [] => emptyStream
    | byte :: data => 0x78 :: 0x01 :: byte :: data
  inflate
    | 0x78 :: 0x01 :: data => some data
    | data => if data = emptyStream then some [] else none
  inflate_deflate
    | [] => rfl
    | _ :: _ => rfl

theorem empty_stream_inflated : decompress emptyZlib true (compress emptyZlib true emptyStream) = [] ∧
    [] ≠ emptyStream := by
  refine ⟨?_, by decide⟩
  have hraw : compress emptyZlib true emptyStream = emptyStream := rfl
  have hinflate : emptyZlib.inflate (emptyStream.take (avail emptyStream)) = some [] := rfl
  rw [hraw, decompress_of_length_lt hinflate (Nat.zero_le _) (by decide) (Nat.zero_le _)]

end Kernel.FileSystem.CompressionManager
