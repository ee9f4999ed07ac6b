import KernelcModerne.Lib.Ring

namespace Kernel.Network

/-- A ring of `capacity` bytes. `head` and `tail` only count up, and wrap. -/
structure RingBuffer (capacity : Nat) where
  data : Fin capacity → UInt8
  head : UInt64
  tail : UInt64

namespace RingBuffer

variable {capacity : Nat}

def constructed (capacity : Nat) : RingBuffer capacity where
  data _ := 0
  head := 0
  tail := 0

variable [NeZero capacity]

/-- The body of the writing loop. -/
def push (self : RingBuffer capacity) (byte : UInt8) : RingBuffer capacity :=
  { self with
    data := Function.update self.data (Fin.ofNat capacity self.tail.toNat) byte
    tail := self.tail + 1 }

/-- The reading loop, which runs `n` more times. -/
def pop (self : RingBuffer capacity) (data : List UInt8) : Nat → List UInt8 × RingBuffer capacity
  | 0 => (data, self)
  | n + 1 =>
    pop { self with head := self.head + 1 } (data ++ [self.data (Fin.ofNat capacity self.head.toNat)]) n

end RingBuffer

structure BufferStats where
  rxOverflows : UInt64
  txOverflows : UInt64
  totalPacketsReceived : UInt64
  totalPacketsSent : UInt64

def CAPACITY : Nat := 1024 * 1024

instance : NeZero CAPACITY := ⟨Nat.succ_ne_zero _⟩

structure BufferManager where
  rxBuffer : RingBuffer CAPACITY
  txBuffer : RingBuffer CAPACITY
  stats : BufferStats

namespace BufferManager

def constructed : BufferManager where
  rxBuffer := .constructed CAPACITY
  txBuffer := .constructed CAPACITY
  stats := ⟨0, 0, 0, 0⟩

def writeToTxBuffer (self : BufferManager) (data : List UInt8) : Bool × BufferManager :=
  if (CAPACITY.toUInt64 - (self.txBuffer.tail - self.txBuffer.head)).toNat < data.length then
    (false, { self with stats := { self.stats with txOverflows := self.stats.txOverflows + 1 } })
  else
    (true,
      { self with
        txBuffer := data.foldl RingBuffer.push self.txBuffer
        stats := { self.stats with totalPacketsSent := self.stats.totalPacketsSent + 1 } })

/-- `readFromRxBuffer(data, size)`, with what it leaves in `data`. -/
def readFromRxBuffer (self : BufferManager) (data : List UInt8) (size : UInt64) :
    Bool × List UInt8 × BufferManager :=
  if self.rxBuffer.tail - self.rxBuffer.head < size then (false, data, self)
  else
    let (data, rxBuffer) := self.rxBuffer.pop [] size.toNat
    (true, data,
      { self with
        rxBuffer
        stats := { self.stats with totalPacketsReceived := self.stats.totalPacketsReceived + 1 } })

end BufferManager

namespace RingBuffer

variable {capacity : Nat}

/-- The number of bytes written and not read yet. -/
def used (self : RingBuffer capacity) : Nat := (self.tail - self.head).toNat

/-- No more bytes are in use than the ring has. -/
def Bounded (self : RingBuffer capacity) : Prop := self.used ≤ capacity

/-- `tail` is `used` ahead of `head`, also where it has wrapped. -/
theorem head_add_used (self : RingBuffer capacity) :
    (self.head.toNat + self.used) % 2 ^ 64 = self.tail.toNat := by
  have hhead := self.head.toNat_lt
  have htail := self.tail.toNat_lt
  rw [used, UInt64.toNat_sub]
  omega

variable [NeZero capacity]

/-- The bytes written and not read yet. -/
def content (self : RingBuffer capacity) : List UInt8 :=
  Ring.window self.data self.head.toNat self.used

@[simp] theorem length_content (self : RingBuffer capacity) : self.content.length = self.used :=
  Ring.length_window _ _ _

/-- The cell at `tail` is `used` cells after the one at `head`. -/
theorem tail_cell (hturn : capacity ∣ 2 ^ 64) (self : RingBuffer capacity) :
    Fin.ofNat capacity (self.head.toNat + self.used) = Fin.ofNat capacity self.tail.toNat := by
  apply Ring.ofNat_congr
  rw [← self.head_add_used, Nat.mod_mod_of_dvd _ hturn]

theorem used_push (self : RingBuffer capacity) (byte : UInt8) (hroom : self.used + 1 < 2 ^ 64) :
    (self.push byte).used = self.used + 1 := by
  have hsub : self.tail + 1 - self.head = self.tail - self.head + 1 := by
    rw [UInt64.sub_eq_add_neg, UInt64.sub_eq_add_neg, UInt64.add_assoc, UInt64.add_comm 1, UInt64.add_assoc]
  have hone : (1 : UInt64).toNat = 1 := rfl
  rw [used, push, hsub, UInt64.toNat_add, hone]
  exact Nat.mod_eq_of_lt hroom

/-- Writing one byte to a ring that is not full. -/
theorem content_push (hturn : capacity ∣ 2 ^ 64) {self : RingBuffer capacity} (byte : UInt8)
    (hroom : self.used < capacity) (hsmall : capacity < 2 ^ 64) :
    (self.push byte).content = self.content ++ [byte] := by
  rw [content, used_push self byte (Nat.lt_of_le_of_lt hroom hsmall)]
  simp only [push]
  rw [← tail_cell hturn]
  exact Ring.window_update self.data self.head.toNat hroom byte

/-- Writing bytes for which there is room. -/
theorem content_foldl_push (hturn : capacity ∣ 2 ^ 64) (hsmall : capacity < 2 ^ 64) (data : List UInt8)
    {self : RingBuffer capacity} (hroom : self.used + data.length ≤ capacity) :
    (data.foldl push self).content = self.content ++ data := by
  induction data generalizing self with
  | nil => exact (List.append_nil _).symm
  | cons byte data ih =>
    rw [List.length_cons] at hroom
    have hused := used_push self byte (by omega)
    rw [List.foldl_cons, ih (by omega), content_push hturn byte (by omega) hsmall, List.append_assoc,
      List.singleton_append]

/-- Reading one byte from a ring that is not empty. -/
theorem content_advance (hturn : capacity ∣ 2 ^ 64) (self : RingBuffer capacity) (hused : 0 < self.used) :
    self.content = self.data (Fin.ofNat capacity self.head.toNat) ::
      ({ self with head := self.head + 1 } : RingBuffer capacity).content := by
  have hone : (1 : UInt64).toNat = 1 := rfl
  have hsub : self.tail - (self.head + 1) = self.tail - self.head - 1 := by
    rw [UInt64.sub_eq_add_neg, UInt64.neg_add, UInt64.sub_eq_add_neg, UInt64.sub_eq_add_neg, UInt64.sub_eq_add_neg,
      UInt64.add_assoc]
  have hnext : ({ self with head := self.head + 1 } : RingBuffer capacity).used + 1 = self.used := by
    have hlt := (self.tail - self.head).toNat_lt
    unfold used at hused ⊢
    simp only [hsub]
    rw [UInt64.toNat_sub, hone]
    omega
  have hcell : (self.head.toNat + 1) % capacity = (self.head + 1).toNat % capacity := by
    rw [UInt64.toNat_add, hone, Nat.mod_mod_of_dvd _ hturn]
  rw [content, ← hnext, Ring.window_succ_left, Ring.window_congr hcell]
  rfl

/-- The reading loop takes the first bytes and leaves the rest. -/
theorem pop_spec (hturn : capacity ∣ 2 ^ 64) {n : Nat} (self : RingBuffer capacity) (data : List UInt8)
    (hn : n ≤ self.used) :
    (self.pop data n).1 = data ++ self.content.take n ∧
      (self.pop data n).2.content = self.content.drop n := by
  induction n generalizing self data with
  | zero => exact ⟨by rw [pop, List.take_zero, List.append_nil], rfl⟩
  | succ n ih =>
    have hcontent := content_advance hturn self (by omega)
    have hlength := congrArg List.length hcontent
    rw [List.length_cons, length_content, length_content] at hlength
    obtain ⟨htaken, hleft⟩ := ih { self with head := self.head + 1 }
      (data ++ [self.data (Fin.ofNat capacity self.head.toNat)]) (by omega)
    rw [pop, hcontent, List.take_succ_cons, List.drop_succ_cons]
    refine ⟨?_, hleft⟩
    rw [htaken, List.append_assoc, List.singleton_append]

end RingBuffer

namespace BufferManager

open RingBuffer (content_foldl_push pop_spec)

theorem capacity_dvd : CAPACITY ∣ 2 ^ 64 := ⟨2 ^ 44, rfl⟩

theorem capacity_lt : CAPACITY < 2 ^ 64 := by decide

/-- `writeToTxBuffer` on the queue of bytes to send: the data are appended if
they fit, else the overflow is counted and nothing else happens. -/
structure WritesQueue (self : BufferManager) (data : List UInt8) (result : Bool × BufferManager) : Prop where
  accepts : result.1 = true ↔ data.length ≤ CAPACITY - self.txBuffer.content.length
  appends : result.1 = true → result.2.txBuffer.content = self.txBuffer.content ++ data
  refuses : result.1 = false → result.2 =
    { self with stats := { self.stats with txOverflows := self.stats.txOverflows + 1 } }
  bounded : result.2.txBuffer.Bounded
  frame : result.2.rxBuffer = self.rxBuffer

/-- `readFromRxBuffer` on the queue of bytes received: the first `size` bytes
are taken if there are as many, else nothing happens. -/
structure ReadsQueue (self : BufferManager) (data : List UInt8) (size : UInt64)
    (result : Bool × List UInt8 × BufferManager) : Prop where
  accepts : result.1 = true ↔ size.toNat ≤ self.rxBuffer.content.length
  takes : result.1 = true → result.2.1 = self.rxBuffer.content.take size.toNat ∧
    result.2.2.rxBuffer.content = self.rxBuffer.content.drop size.toNat
  refuses : result.1 = false → result.2 = (data, self)
  bounded : result.2.2.rxBuffer.Bounded
  frame : result.2.2.txBuffer = self.txBuffer

/-- The free bytes of the ring, as the code computes them. -/
theorem free_eq {self : BufferManager} (h : self.txBuffer.Bounded) :
    (CAPACITY.toUInt64 - (self.txBuffer.tail - self.txBuffer.head)).toNat =
      CAPACITY - self.txBuffer.used := by
  have hcapacity : CAPACITY.toUInt64.toNat = CAPACITY := rfl
  rw [UInt64.toNat_sub_of_le, hcapacity]
  · rfl
  · rw [UInt64.le_iff_toNat_le, hcapacity]
    exact h

theorem writeToTxBuffer_spec {self : BufferManager} (h : self.txBuffer.Bounded) (data : List UInt8) :
    self.WritesQueue data (self.writeToTxBuffer data) := by
  unfold writeToTxBuffer
  rw [free_eq h]
  by_cases hfull : CAPACITY - self.txBuffer.used < data.length
  · rw [if_pos hfull]
    refine ⟨?_, nofun, fun _ => rfl, h, rfl⟩
    rw [RingBuffer.length_content]
    exact iff_of_false nofun (Nat.not_le.mpr hfull)
  · rw [if_neg hfull]
    have hfits : self.txBuffer.used + data.length ≤ CAPACITY := by
      unfold RingBuffer.Bounded at h
      omega
    have hcontent := content_foldl_push capacity_dvd capacity_lt data hfits
    refine ⟨?_, fun _ => hcontent, nofun, ?_, rfl⟩
    · rw [RingBuffer.length_content]
      exact iff_of_true rfl (Nat.not_lt.mp hfull)
    · rw [RingBuffer.Bounded, ← RingBuffer.length_content, hcontent, List.length_append,
        RingBuffer.length_content]
      exact hfits

theorem readFromRxBuffer_spec {self : BufferManager} (h : self.rxBuffer.Bounded) (data : List UInt8)
    (size : UInt64) : self.ReadsQueue data size (self.readFromRxBuffer data size) := by
  have hused : self.rxBuffer.tail - self.rxBuffer.head < size ↔ self.rxBuffer.used < size.toNat :=
    UInt64.lt_iff_toNat_lt
  unfold readFromRxBuffer
  by_cases hshort : self.rxBuffer.used < size.toNat
  · rw [if_pos (hused.mpr hshort)]
    refine ⟨?_, nofun, fun _ => rfl, h, rfl⟩
    rw [RingBuffer.length_content]
    exact iff_of_false nofun (Nat.not_le.mpr hshort)
  · rw [if_neg (mt hused.mp hshort)]
    obtain ⟨htaken, hleft⟩ := pop_spec capacity_dvd self.rxBuffer [] (Nat.not_lt.mp hshort)
    refine ⟨?_, fun _ => ⟨htaken, hleft⟩, nofun, ?_, rfl⟩
    · rw [RingBuffer.length_content]
      exact iff_of_true rfl (Nat.not_lt.mp hshort)
    · rw [RingBuffer.Bounded, ← RingBuffer.length_content, hleft, List.length_drop,
        RingBuffer.length_content]
      exact (Nat.sub_le _ _).trans h

/-- The rings of a manager are queues of bytes, to send and received. -/
theorem rings_refine_queues (self : BufferManager) :
    (self.txBuffer.Bounded → ∀ data, self.WritesQueue data (self.writeToTxBuffer data)) ∧
      (self.rxBuffer.Bounded → ∀ data size, self.ReadsQueue data size (self.readFromRxBuffer data size)) :=
  ⟨writeToTxBuffer_spec, readFromRxBuffer_spec⟩

/-- A manager in whose rings `tail` has wrapped and `head` has not. -/
def wrapped : BufferManager where
  rxBuffer := ⟨fun _ => 7, 0xFFFFFFFFFFFFFFFE, 1⟩
  txBuffer := ⟨fun _ => 7, 0xFFFFFFFFFFFFFFFE, 1⟩
  stats := ⟨0, 0, 0, 0⟩

theorem wrapped_refines_queues :
    (∀ data, wrapped.WritesQueue data (wrapped.writeToTxBuffer data)) ∧
      ∀ data size, wrapped.ReadsQueue data size (wrapped.readFromRxBuffer data size) := by
  have hbounded : 3 ≤ CAPACITY := by decide
  exact ⟨wrapped.rings_refine_queues.1 hbounded, wrapped.rings_refine_queues.2 hbounded⟩

end BufferManager

end Kernel.Network
