import Mathlib.Algebra.Group.Nat.Defs
import Mathlib.Data.Set.Function

namespace Kernel.Interrupt

/-- The manager of `InterruptHandler.hpp`, with the table that its constructor
has resized. -/
structure InterruptManager where
  idt : Vector (BitVec 64) 256

namespace InterruptManager

def IDT_PRESENT : BitVec 16 := 0x8000
def IDT_DPL0 : BitVec 16 := 0x0000
def IDT_INTERRUPT : BitVec 16 := 0x0E00

def createIDTEntry (handlerAddr : BitVec 64) : BitVec 64 :=
  (handlerAddr &&& 0xFFFF) <<< 0 |||
    (0x08 : BitVec 64) <<< 16 |||
    (IDT_PRESENT ||| IDT_DPL0 ||| IDT_INTERRUPT).setWidth 64 <<< 32 |||
    ((handlerAddr >>> 16) &&& 0xFFFF) <<< 48

def setupIDTEntry (self : InterruptManager) (vector : UInt8) (handler : BitVec 64) : InterruptManager :=
  { self with idt := self.idt.set vector.toNat (createIDTEntry handler) vector.toNat_lt }

/-- The loop over the table. -/
def setupIDT (self : InterruptManager) (defaultHandler : BitVec 64) : InterruptManager :=
  (List.range 256).foldl (fun self i => self.setupIDTEntry (.ofNat i) defaultHandler) self

/-- The entry that the table holds under a vector. -/
def entry (self : InterruptManager) (vector : UInt8) : BitVec 64 :=
  have := vector.toNat_lt
  self.idt[vector.toNat]

theorem entry_setupIDTEntry (self : InterruptManager) (vector : UInt8) (handler : BitVec 64) :
    (self.setupIDTEntry vector handler).entry vector = createIDTEntry handler :=
  Vector.getElem_set_self ..

theorem entry_setupIDTEntry_ne (self : InterruptManager) {vector other : UInt8} (hne : vector ≠ other)
    (handler : BitVec 64) : (self.setupIDTEntry vector handler).entry other = self.entry other := by
  apply Vector.getElem_set_ne vector.toNat_lt other.toNat_lt
  exact fun heq => hne (UInt8.toNat_inj.mp heq)

/-- The first passes of the loop give their vectors the default handler. -/
theorem entry_foldl_setupIDTEntry (self : InterruptManager) (defaultHandler : BitVec 64) {vector : UInt8}
    {count : Nat} (hcount : count ≤ 256) (hvector : vector.toNat < count) :
    ((List.range count).foldl (fun self i => self.setupIDTEntry (.ofNat i) defaultHandler) self).entry
      vector = createIDTEntry defaultHandler := by
  induction count with
  | zero => cases hvector
  | succ count ih =>
    rw [List.range_succ, List.foldl_append, List.foldl_cons, List.foldl_nil]
    by_cases hlast : UInt8.ofNat count = vector
    · rw [hlast, entry_setupIDTEntry]
    · have hcountNat : (UInt8.ofNat count).toNat = count := by
        apply UInt8.toNat_ofNat_of_lt'
        simp only [UInt8.size]
        omega
      have hne : count ≠ vector.toNat := fun heq => hlast (UInt8.toNat_inj.mp (hcountNat.trans heq))
      rw [entry_setupIDTEntry_ne _ hlast, ih (by omega) (by omega)]

theorem entry_setupIDT (self : InterruptManager) (defaultHandler : BitVec 64) (vector : UInt8) :
    (self.setupIDT defaultHandler).entry vector = createIDTEntry defaultHandler :=
  self.entry_foldl_setupIDTEntry defaultHandler (Nat.le_refl _) vector.toNat_lt

theorem toNat_handlerLow (handlerAddr : BitVec 64) :
    ((handlerAddr &&& 0xFFFF) <<< 0).toNat = handlerAddr.toNat % 2 ^ 16 := by
  rw [BitVec.shiftLeft_zero, BitVec.toNat_and]
  exact Nat.and_two_pow_sub_one_eq_mod _ 16

theorem toNat_handlerHigh (handlerAddr : BitVec 64) :
    (((handlerAddr >>> 16) &&& 0xFFFF) <<< 48).toNat = 2 ^ 48 * (handlerAddr.toNat / 2 ^ 16 % 2 ^ 16) := by
  have hfield : ((handlerAddr >>> 16) &&& 0xFFFF).toNat = handlerAddr.toNat / 2 ^ 16 % 2 ^ 16 := by
    rw [BitVec.toNat_and, BitVec.toNat_ushiftRight, Nat.shiftRight_eq_div_pow]
    exact Nat.and_two_pow_sub_one_eq_mod _ 16
  rw [BitVec.toNat_shiftLeft, hfield, Nat.shiftLeft_eq, Nat.mul_comm]
  omega

/-- The fields of an entry: the lowest 16 bits of the handler, the selector, the
type, and the next 16 bits of the handler. They do not overlap. -/
theorem toNat_createIDTEntry (handlerAddr : BitVec 64) :
    (createIDTEntry handlerAddr).toNat =
      2 ^ 48 * (handlerAddr.toNat / 2 ^ 16 % 2 ^ 16) +
        (2 ^ 32 * 0x8E00 + (2 ^ 16 * 0x08 + handlerAddr.toNat % 2 ^ 16)) := by
  have hlow : handlerAddr.toNat % 2 ^ 16 < 2 ^ 16 := Nat.mod_lt _ (by decide)
  have hselector : ((0x08 : BitVec 64) <<< 16).toNat = 2 ^ 16 * 0x08 := by decide
  have htype : ((IDT_PRESENT ||| IDT_DPL0 ||| IDT_INTERRUPT).setWidth 64 <<< 32).toNat = 2 ^ 32 * 0x8E00 := by
    decide
  rw [createIDTEntry, BitVec.toNat_or, BitVec.toNat_or, BitVec.toNat_or, toNat_handlerLow, hselector, htype,
    toNat_handlerHigh]
  -- each field begins at or behind the end of those below it
  rw [Nat.or_comm (_ % _), ← Nat.two_pow_add_eq_or_of_lt hlow, Nat.or_comm (_ + _),
    ← Nat.two_pow_add_eq_or_of_lt (by omega), Nat.or_comm, ← Nat.two_pow_add_eq_or_of_lt (by omega)]

/-- An entry holds the lowest 32 bits of its handler and nothing else of it. -/
theorem createIDTEntry_eq_iff (handler other : BitVec 64) :
    createIDTEntry handler = createIDTEntry other ↔ handler.toNat % 2 ^ 32 = other.toNat % 2 ^ 32 := by
  rw [← BitVec.toNat_inj, toNat_createIDTEntry, toNat_createIDTEntry]
  omega

/-- Over a set of handlers the entries, as they are created and as the table
holds them, determine the handlers exactly where no two of these agree in their
lowest 32 bits. -/
theorem createIDTEntry_injOn_iff (handlers : Set (BitVec 64)) :
    (Set.InjOn createIDTEntry handlers ↔
      ∀ handler ∈ handlers, ∀ other ∈ handlers,
        handler.toNat % 2 ^ 32 = other.toNat % 2 ^ 32 → handler = other) ∧
    ∀ (self : InterruptManager) (vector : UInt8),
      (Set.InjOn (fun handler => (self.setupIDTEntry vector handler).entry vector) handlers ↔
        ∀ handler ∈ handlers, ∀ other ∈ handlers,
          handler.toNat % 2 ^ 32 = other.toNat % 2 ^ 32 → handler = other) := by
  have hinjOn : Set.InjOn createIDTEntry handlers ↔ ∀ handler ∈ handlers, ∀ other ∈ handlers,
      handler.toNat % 2 ^ 32 = other.toNat % 2 ^ 32 → handler = other := by
    unfold Set.InjOn
    simp only [createIDTEntry_eq_iff]
  refine ⟨hinjOn, fun self vector => ?_⟩
  simp only [entry_setupIDTEntry]
  exact hinjOn

/-- The addresses of the upper half, where the kernel is. -/
def upperHalf : Set (BitVec 64) := {handler | 0xFFFF800000000000 ≤ handler.toNat}

/-- Two handlers of the upper half that lie 4 GiB apart. -/
theorem upper_handlers_collide : ¬ Set.InjOn createIDTEntry upperHalf := by
  intro h
  have hlow : 0xFFFF800000100000#64 ∈ upperHalf := by simp [upperHalf]
  have hhigh : 0xFFFF800100100000#64 ∈ upperHalf := by simp [upperHalf]
  exact absurd (h hlow hhigh (by decide)) (by decide)

end InterruptManager

end Kernel.Interrupt
