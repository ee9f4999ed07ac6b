import KernelcModerne.Lib.ByteMask

namespace Kernel.Interrupt

/-- An 8259. The first initialization word clears its mask register, and the
data port takes the `pending` other words before it takes masks. -/
structure Pic where
  interruptMask : UInt8
  pending : Nat

namespace Pic

/-- Bit 4 marks the first initialization word; bit 1 says that there is no
slave, bit 0 that a last word follows. -/
def writeCommand (self : Pic) (value : UInt8) : Pic :=
  if value &&& 0x10 ≠ 0 then
    { interruptMask := 0
      pending := 1 + (if value &&& 0x02 = 0 then 1 else 0) + (if value &&& 0x01 ≠ 0 then 1 else 0) }
  else self

def writeData (self : Pic) (value : UInt8) : Pic :=
  if self.pending = 0 then { self with interruptMask := value }
  else { self with pending := self.pending - 1 }

end Pic

/-- The two interrupt controllers, behind their ports. -/
structure Controllers where
  master : Pic
  slave : Pic

namespace Controllers

def outb (self : Controllers) (port : UInt16) (value : UInt8) : Controllers :=
  if port = 0x20 then { self with master := self.master.writeCommand value }
  else if port = 0x21 then { self with master := self.master.writeData value }
  else if port = 0xA0 then { self with slave := self.slave.writeCommand value }
  else if port = 0xA1 then { self with slave := self.slave.writeData value }
  else self

/-- The data ports answer the mask registers. -/
def inb (self : Controllers) (port : UInt16) : UInt8 :=
  if port = 0x21 then self.master.interruptMask
  else if port = 0xA1 then self.slave.interruptMask
  else 0

def maskIRQ (self : Controllers) (irqNumber : Nat) : Controllers :=
  if irqNumber < 16 then
    let port : UInt16 := if irqNumber < 8 then 0x21 else 0xA1
    let value := self.inb port ||| (1 <<< UInt8.ofNat (irqNumber % 8))
    self.outb port value
  else self

def unmaskIRQ (self : Controllers) (irqNumber : Nat) : Controllers :=
  if irqNumber < 16 then
    let port : UInt16 := if irqNumber < 8 then 0x21 else 0xA1
    let value := self.inb port &&& ~~~(1 <<< UInt8.ofNat (irqNumber % 8))
    self.outb port value
  else self

def setupPIC (self : Controllers) : Controllers :=
  let self := self.outb 0x20 0x11
  let self := self.outb 0xA0 0x11
  let self := self.outb 0x21 0x20
  let self := self.outb 0xA1 0x28
  let self := self.outb 0x21 0x04
  let self := self.outb 0xA1 0x02
  let self := self.outb 0x21 0x01
  let self := self.outb 0xA1 0x01
  let self := self.outb 0x21 0xFF
  self.outb 0xA1 0xFF

inductive IrqCall where
  | mask (irqNumber : UInt32)
  | unmask (irqNumber : UInt32)

def IrqCall.irqNumber : IrqCall → Nat
  | .mask irqNumber => irqNumber.toNat
  | .unmask irqNumber => irqNumber.toNat

def IrqCall.unmasks : IrqCall → Bool
  | .mask _ => false
  | .unmask _ => true

def perform (self : Controllers) : IrqCall → Controllers
  | .mask irqNumber => self.maskIRQ irqNumber.toNat
  | .unmask irqNumber => self.unmaskIRQ irqNumber.toNat

/-- The mask bit of line `n`. -/
def masked (self : Controllers) (n : Nat) : Bool :=
  (if n < 8 then self.master else self.slave).interruptMask.toBitVec.getLsbD (n % 8)

/-- The line is not masked, and neither is the cascade on line 2 of the master,
for a line of the slave. -/
def Deliverable (self : Controllers) (n : Nat) : Prop :=
  self.masked n = false ∧ (8 ≤ n → self.masked 2 = false)

/-- Whether the last of the calls for line `n` is an unmask. -/
def lastUnmasks (calls : List IrqCall) (n : Nat) : Bool :=
  (calls.reverse.find? fun call => call.irqNumber = n).any IrqCall.unmasks

/-- The data ports take masks. -/
structure Ready (controllers : Controllers) : Prop where
  master : controllers.master.pending = 0
  slave : controllers.slave.pending = 0

variable {self : Controllers}

theorem setupPIC_eq (self : Controllers) : self.setupPIC = ⟨⟨0xFF, 0⟩, ⟨0xFF, 0⟩⟩ := rfl

theorem setupPIC_masked (self : Controllers) {n : Nat} (hn : n < 16) : self.setupPIC.masked n = true := by
  rw [setupPIC_eq]
  interval_cases n <;> rfl

/-- A write of the mask register of a line changes the lines of that controller. -/
theorem Ready.outb_mask (h : self.Ready) (irqNumber : Nat) (value : UInt8) :
    (self.outb (if irqNumber < 8 then 0x21 else 0xA1) value).Ready ∧
      ∀ n, (self.outb (if irqNumber < 8 then 0x21 else 0xA1) value).masked n =
        if (n < 8 ↔ irqNumber < 8) then value.toBitVec.getLsbD (n % 8) else self.masked n := by
  have hmaster := h.master
  have hslave := h.slave
  by_cases hirq : irqNumber < 8
  · refine ⟨⟨?_, ?_⟩, fun n => ?_⟩
    · simp [outb, Pic.writeData, hirq, hmaster]
    · simp [outb, hirq, hslave]
    · by_cases hn : n < 8 <;> simp [masked, outb, Pic.writeData, hirq, hmaster, hn]
  · refine ⟨⟨?_, ?_⟩, fun n => ?_⟩
    · simp [outb, hirq, hmaster]
    · simp [outb, Pic.writeData, hirq, hslave]
    · by_cases hn : n < 8 <;> simp [masked, outb, Pic.writeData, hirq, hslave, hn]

theorem getLsbD_inb (self : Controllers) {n irqNumber : Nat} (h : n < 8 ↔ irqNumber < 8) :
    (self.inb (if irqNumber < 8 then 0x21 else 0xA1)).toBitVec.getLsbD (n % 8) = self.masked n := by
  by_cases hn : n < 8
  · simp [inb, masked, hn, h.mp hn]
  · simp [inb, masked, hn, mt h.mpr hn]

/-- Masking one line leaves the others. -/
theorem Ready.maskIRQ (h : self.Ready) (irqNumber : Nat) :
    (self.maskIRQ irqNumber).Ready ∧ ∀ n, n < 16 →
      (self.maskIRQ irqNumber).masked n = if irqNumber = n then true else self.masked n := by
  unfold Controllers.maskIRQ
  by_cases hirq : irqNumber < 16
  · rw [if_pos hirq]
    obtain ⟨hready, hmasked⟩ := h.outb_mask irqNumber
      (self.inb (if irqNumber < 8 then 0x21 else 0xA1) ||| (1 <<< UInt8.ofNat (irqNumber % 8)))
    refine ⟨hready, fun n hn => ?_⟩
    rw [hmasked]
    by_cases hsame : n < 8 ↔ irqNumber < 8
    · rw [if_pos hsame, ByteMask.getLsbD_or_bit _ (Nat.mod_lt _ (by decide)), self.getLsbD_inb hsame]
      exact if_congr (by omega) rfl rfl
    · rw [if_neg hsame, if_neg (by omega)]
  · rw [if_neg hirq]
    exact ⟨h, fun n hn => (if_neg (by omega)).symm⟩

theorem Ready.unmaskIRQ (h : self.Ready) (irqNumber : Nat) :
    (self.unmaskIRQ irqNumber).Ready ∧ ∀ n, n < 16 →
      (self.unmaskIRQ irqNumber).masked n = if irqNumber = n then false else self.masked n := by
  unfold Controllers.unmaskIRQ
  by_cases hirq : irqNumber < 16
  · rw [if_pos hirq]
    obtain ⟨hready, hmasked⟩ := h.outb_mask irqNumber
      (self.inb (if irqNumber < 8 then 0x21 else 0xA1) &&& ~~~(1 <<< UInt8.ofNat (irqNumber % 8)))
    refine ⟨hready, fun n hn => ?_⟩
    rw [hmasked]
    by_cases hsame : n < 8 ↔ irqNumber < 8
    · rw [if_pos hsame, ByteMask.getLsbD_and_not_bit _ (Nat.mod_lt _ (by decide)) (Nat.mod_lt _ (by decide)),
        self.getLsbD_inb hsame]
      exact if_congr (by omega) rfl rfl
    · rw [if_neg hsame, if_neg (by omega)]
  · rw [if_neg hirq]
    exact ⟨h, fun n hn => (if_neg (by omega)).symm⟩

/-- One call sets the mask bit of its line to what it says, and no other. -/
theorem Ready.perform (h : self.Ready) (call : IrqCall) :
    (self.perform call).Ready ∧ ∀ n, n < 16 →
      (self.perform call).masked n = if call.irqNumber = n then !call.unmasks else self.masked n := by
  cases call with
  | mask irqNumber => exact h.maskIRQ irqNumber.toNat
  | unmask irqNumber => exact h.unmaskIRQ irqNumber.toNat

theorem lastUnmasks_concat (calls : List IrqCall) (call : IrqCall) (n : Nat) :
    lastUnmasks (calls ++ [call]) n = if call.irqNumber = n then call.unmasks else lastUnmasks calls n := by
  rw [lastUnmasks, List.reverse_append, List.reverse_singleton, List.singleton_append, List.find?_cons]
  by_cases hn : call.irqNumber = n
  · simp [hn]
  · simp [hn, lastUnmasks]

/-- After any calls a line is unmasked exactly when the last of them for it was
an unmask. -/
theorem masked_run (self : Controllers) (calls : List IrqCall) :
    (calls.foldl perform self.setupPIC).Ready ∧ ∀ n, n < 16 →
      (calls.foldl perform self.setupPIC).masked n = !lastUnmasks calls n := by
  induction calls using List.reverseRecOn with
  | nil => exact ⟨⟨rfl, rfl⟩, fun n hn => self.setupPIC_masked hn⟩
  | append_singleton calls call ih =>
    obtain ⟨hready, hmasked⟩ := ih
    obtain ⟨hafter, hstep⟩ := hready.perform call
    rw [List.foldl_concat]
    refine ⟨hafter, fun n hn => ?_⟩
    rw [hstep n hn, hmasked n hn, lastUnmasks_concat]
    split <;> rfl

theorem deliverable_run_iff (self : Controllers) (calls : List IrqCall) {n : Nat} (hn : n < 16) :
    (calls.foldl perform self.setupPIC).Deliverable n ↔
      lastUnmasks calls n = true ∧ (8 ≤ n → lastUnmasks calls 2 = true) := by
  obtain ⟨_, hmasked⟩ := self.masked_run calls
  simp only [Deliverable, hmasked n hn, hmasked 2 (by decide), Bool.not_eq_eq_eq_not, Bool.not_false]

/-- After any calls a line is deliverable exactly when the last of them for it
was an unmask, as long as that is so for line 2 when it is for a line of the
slave; and not otherwise. -/
theorem deliverable_iff_unmasked_iff (self : Controllers) (calls : List IrqCall) (n : Fin 16) :
    ((calls.foldl perform self.setupPIC).Deliverable n ↔ lastUnmasks calls n = true) ↔
      (8 ≤ n.val → lastUnmasks calls n = true → lastUnmasks calls 2 = true) := by
  rw [self.deliverable_run_iff calls n.isLt]
  constructor
  · intro hiff hslave hlast
    exact (hiff.mpr hlast).2 hslave
  · intro hcascade
    constructor
    · exact And.left
    · intro hlast
      exact ⟨hlast, fun hslave => hcascade hslave hlast⟩

/-- Line 8 unmasked, with the cascade masked since the setup. -/
theorem unmasked_line_not_deliverable :
    ¬ ∀ (self : Controllers) (calls : List IrqCall) (n : Fin 16), n ≠ 2 →
      ((calls.foldl perform self.setupPIC).Deliverable n ↔ lastUnmasks calls n = true) := by
  intro hall
  have hline := (hall ⟨⟨0, 0⟩, ⟨0, 0⟩⟩ [.unmask 8] 8 (by decide)).mpr (by decide)
  exact absurd (hline.2 (by decide)) (by decide)

end Controllers

end Kernel.Interrupt
