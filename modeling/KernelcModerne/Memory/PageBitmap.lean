import Mathlib.Order.Interval.Finset.Nat
import KernelcModerne.Lib.ByteMask

namespace Kernel.Memory

/-- The bytes that `buffer` points at, with the recorded `size`. -/
structure PageBitmap where
  buffer : List UInt8
  size : Nat
  length_buffer : buffer.length = size

namespace PageBitmap

/-- `new uint8_t[size]()`: as many zero bytes. -/
def zeroed (size : Nat) : PageBitmap where
  buffer := List.replicate size 0
  size
  length_buffer := List.length_replicate

/-- Bit `index` of the buffer; an access past the buffer is undefined. -/
def getBit (bitmap : PageBitmap) (index : Nat) : Option Bool :=
  let byteIndex := index / 8
  let bitIndex := index % 8
  let bitMask : UInt8 := 1 <<< UInt8.ofNat bitIndex
  (bitmap.buffer[byteIndex]?).map fun byte => (byte &&& bitMask) != 0

/-- Writes bit `index`; an access past the buffer is undefined. -/
def setBit (bitmap : PageBitmap) (index : Nat) (value : Bool) : Option PageBitmap :=
  let byteIndex := index / 8
  let bitIndex := index % 8
  let bitMask : UInt8 := 1 <<< UInt8.ofNat bitIndex
  (bitmap.buffer[byteIndex]?).map fun byte =>
    { buffer := bitmap.buffer.set byteIndex (if value then byte ||| bitMask else byte &&& ~~~bitMask)
      size := bitmap.size
      length_buffer := by rw [List.length_set, bitmap.length_buffer] }

/-- The bit of page `index`, clear past the end of the buffer. -/
def bit (bitmap : PageBitmap) (index : Nat) : Bool :=
  ((bitmap.buffer[index / 8]?).getD 0).toBitVec.getLsbD (index % 8)

/-- A read inside the buffer gives the page's bit. -/
theorem getBit_eq_bit {bitmap : PageBitmap} {index : Nat} (hindex : index / 8 < bitmap.size) :
    bitmap.getBit index = some (bitmap.bit index) := by
  rw [← bitmap.length_buffer] at hindex
  simp only [getBit, bit, List.getElem?_eq_getElem hindex, Option.map_some, Option.getD_some]
  rw [ByteMask.and_bit_ne_zero (Nat.mod_lt _ (by decide))]

theorem getBit_eq_none {bitmap : PageBitmap} {index : Nat} (hindex : bitmap.size ≤ index / 8) :
    bitmap.getBit index = none := by
  rw [← bitmap.length_buffer] at hindex
  simp only [getBit, List.getElem?_eq_none hindex, Option.map_none]

private theorem setBit_buffer {bitmap : PageBitmap} {index : Nat}
    (hindex : index / 8 < bitmap.buffer.length) (value : Bool) :
    ∃ after, bitmap.setBit index value = some after ∧ after.size = bitmap.size ∧
      after.buffer = bitmap.buffer.set (index / 8)
        (if value then bitmap.buffer[index / 8] ||| (1 <<< UInt8.ofNat (index % 8))
          else bitmap.buffer[index / 8] &&& ~~~(1 <<< UInt8.ofNat (index % 8))) := by
  simp only [setBit, List.getElem?_eq_getElem hindex, Option.map_some]
  exact ⟨_, rfl, rfl, rfl⟩

/-- A write inside the buffer changes the bit of its own page only. -/
theorem setBit_spec (bitmap : PageBitmap) (index : Nat) (value : Bool)
    (hindex : index / 8 < bitmap.size) :
    ∃ after, bitmap.setBit index value = some after ∧ after.size = bitmap.size ∧
      ∀ i, after.bit i = if i = index then value else bitmap.bit i := by
  have hlen := hindex
  rw [← bitmap.length_buffer] at hlen
  obtain ⟨after, hset, hsize, hbuffer⟩ := setBit_buffer hlen value
  refine ⟨after, hset, hsize, ?_⟩
  intro i
  simp only [bit, hbuffer, List.getElem?_set]
  by_cases hbyte : index / 8 = i / 8
  · have hk : index % 8 < 8 := Nat.mod_lt _ (by decide)
    have hi : i % 8 < 8 := Nat.mod_lt _ (by decide)
    have hsame : index % 8 = i % 8 ↔ i = index := by omega
    rw [if_pos hbyte, if_pos hlen, ← hbyte]
    simp only [Option.getD_some, List.getElem?_eq_getElem hlen]
    cases value with
    | true =>
      rw [if_pos rfl, ByteMask.getLsbD_or_bit _ hk]
      exact if_congr (eq_comm.trans hsame) rfl rfl
    | false =>
      rw [if_neg Bool.false_ne_true, ByteMask.getLsbD_and_not_bit _ hi hk]
      exact if_congr (eq_comm.trans hsame) rfl rfl
  · have hne : i ≠ index := by
      rintro rfl
      exact hbyte rfl
    rw [if_neg hbyte, if_neg hne]

/-- A bit that is written is read back, and the other bits and the other bytes
are as they were. -/
theorem getBit_setBit (bitmap : PageBitmap) {i : Nat} (hi : i < 8 * bitmap.size) (value : Bool) :
    ∃ after, bitmap.setBit i value = some after ∧ after.size = bitmap.size ∧
      (∀ j < 8 * bitmap.size, after.getBit j = if j = i then some value else bitmap.getBit j) ∧
      ∀ k, k ≠ i / 8 → after.buffer[k]? = bitmap.buffer[k]? := by
  have hbyte : i / 8 < bitmap.size := by omega
  obtain ⟨after, hset, hsize, hbit⟩ := bitmap.setBit_spec i value hbyte
  obtain ⟨written, hwritten, _, hbuffer⟩ := setBit_buffer (bitmap.length_buffer ▸ hbyte) value
  obtain rfl : after = written := Option.some.inj (hset.symm.trans hwritten)
  refine ⟨after, hset, hsize, ?_, ?_⟩
  · intro j hj
    rw [getBit_eq_bit (by omega), getBit_eq_bit (by omega), hbit, apply_ite some]
  · intro k hk
    rw [hbuffer]
    exact List.getElem?_set_ne hk.symm

/-- A bit of the second of two bytes. -/
theorem getBit_setBit_second :
    ∃ after, (zeroed 2).setBit 9 true = some after ∧ after.size = (zeroed 2).size ∧
      (∀ j < 8 * (zeroed 2).size, after.getBit j = if j = 9 then some true else (zeroed 2).getBit j) ∧
      ∀ k, k ≠ 9 / 8 → after.buffer[k]? = (zeroed 2).buffer[k]? :=
  getBit_setBit (zeroed 2) (by decide) true

@[simp] theorem bit_zeroed (size index : Nat) : (zeroed size).bit index = false := by
  simp only [bit, zeroed, List.getElem?_replicate]
  split <;> simp

end PageBitmap

end Kernel.Memory
