import KernelcModerne.Lib.Word64
import KernelcModerne.Memory.PageScan

namespace Kernel.Memory

structure EnhancedPageAllocator where
  bitmap : PageBitmap
  memoryStart : Nat
  totalPages : Nat
  freePages : Nat

namespace EnhancedPageAllocator

def PAGE_SIZE : Nat := 4096

def HUGE_PAGE_SIZE : Nat := 2 * 1024 * 1024

/-- The allocator after `initialize(start, memorySize)`. -/
def initialized (start memorySize : Nat) : EnhancedPageAllocator :=
  let totalPages := memorySize / PAGE_SIZE
  { bitmap := .zeroed ((totalPages + 7) / 8)
    memoryStart := start
    totalPages
    freePages := totalPages }

def pageSize (useHugePages : Bool) : Nat := if useHugePages then HUGE_PAGE_SIZE else PAGE_SIZE

/-- `(size + pageSize - 1) / pageSize`, where the sum wraps. -/
def pageCount (size : Nat) (useHugePages : Bool) : Nat :=
  Word64.add size (pageSize useHugePages - 1) / pageSize useHugePages

/-- The bitmap has one bit for 4 KiB in either mode: only the count of bits and
the address returned are scaled by `pageSize`. -/
def allocate (self : EnhancedPageAllocator) (size : Nat) (useHugePages : Bool := false) :
    Option (EnhancedPageAllocator × Option Nat) :=
  let count := pageCount size useHugePages
  (self.bitmap.findPages count self.totalPages 0 0 0).bind fun
    | some startPage =>
      (self.bitmap.setRange startPage count true).map fun bitmap =>
        ({ self with bitmap, freePages := Word64.sub self.freePages count },
          some (Word64.add self.memoryStart (Word64.mul startPage (pageSize useHugePages))))
    | none => some (self, none)

/-- The pages marked so far. -/
def usedPages (self : EnhancedPageAllocator) : Nat := self.totalPages - self.freePages

/-- Nothing is ever freed, so the marked bits are the first `usedPages` ones. -/
structure Packed (allocator : EnhancedPageAllocator) : Prop where
  covered : allocator.totalPages ≤ 8 * allocator.bitmap.size
  pages_lt : allocator.totalPages < 2 ^ 64
  free_le : allocator.freePages ≤ allocator.totalPages
  bits : ∀ i, allocator.bitmap.bit i = decide (i < allocator.usedPages)

theorem initialized_packed {start memorySize : Nat} (hsize : memorySize < 2 ^ 64) :
    (initialized start memorySize).Packed where
  covered := by
    simp only [initialized, PageBitmap.zeroed]
    omega
  pages_lt := by
    simp only [initialized, PAGE_SIZE]
    omega
  free_le := le_refl _
  bits i := by simp [initialized, usedPages]

/-- A call is granted when it asks for a positive number of bits and that many
are left. -/
def Grants (self : EnhancedPageAllocator) (size : Nat) (useHugePages : Bool) : Prop :=
  0 < pageCount size useHugePages ∧
    self.usedPages + pageCount size useHugePages ≤ self.totalPages

instance (self : EnhancedPageAllocator) (size : Nat) (useHugePages : Bool) :
    Decidable (self.Grants size useHugePages) :=
  inferInstanceAs (Decidable (_ ∧ _))

/-- On a packed allocator a granted call marks the next bits and answers the
address of the first of them, in units of its page size. -/
theorem allocate_granted {self : EnhancedPageAllocator} (h : self.Packed) {size : Nat}
    {useHugePages : Bool} (hgrant : self.Grants size useHugePages) :
    ∃ after, self.allocate size useHugePages = some (after, some (Word64.add self.memoryStart
        (Word64.mul self.usedPages (pageSize useHugePages)))) ∧
      after.memoryStart = self.memoryStart ∧ after.totalPages = self.totalPages ∧
      after.usedPages = self.usedPages + pageCount size useHugePages ∧ after.Packed := by
  obtain ⟨hpos, hroom⟩ := hgrant
  have hcovered := h.covered
  have hfree := h.free_le
  have hlt := h.pages_lt
  have hused : self.usedPages = self.totalPages - self.freePages := rfl
  obtain ⟨found, hfound, hfit⟩ := PageBitmap.findPages_spec hcovered hpos
  have hnext := Extent.isFirstFit_of_initial self.totalPages h.bits hpos
  rw [if_pos hroom] at hnext
  obtain rfl := hfit.unique hnext
  obtain ⟨bitmap, hset, hsize, hbit⟩ := self.bitmap.setRange_spec self.usedPages
    (pageCount size useHugePages) true (by omega)
  have hsub : Word64.sub self.freePages (pageCount size useHugePages) =
      self.freePages - pageCount size useHugePages :=
    Word64.sub_eq_of_le (by omega) (by omega)
  have hafterUsed : self.totalPages - (self.freePages - pageCount size useHugePages) =
      self.usedPages + pageCount size useHugePages := by omega
  refine ⟨{ self with bitmap, freePages := Word64.sub self.freePages (pageCount size useHugePages) },
    by simp only [allocate, hfound, hset, Option.bind_some, Option.map_some], rfl, rfl,
    by simpa only [usedPages, hsub] using hafterUsed, by simpa only [hsize] using hcovered, hlt,
    by simp only [hsub]; omega, ?_⟩
  intro i
  simp only [usedPages, hsub, hafterUsed, hbit, h.bits, Extent.mem_cells, Extent.stop_mk]
  split
  · exact (decide_eq_true (by omega)).symm
  · exact decide_eq_decide.mpr (by omega)

/-- On a packed allocator any other call answers null and changes nothing. -/
theorem allocate_refused {self : EnhancedPageAllocator} (h : self.Packed) {size : Nat}
    {useHugePages : Bool} (hrefuse : ¬ self.Grants size useHugePages) :
    self.allocate size useHugePages = some (self, none) := by
  by_cases hzero : pageCount size useHugePages = 0
  · simp [allocate, hzero, PageBitmap.findPages_zero h.covered]
  · have hpos : 0 < pageCount size useHugePages := Nat.pos_of_ne_zero hzero
    obtain ⟨found, hfound, hfit⟩ := PageBitmap.findPages_spec h.covered hpos
    have hnext := Extent.isFirstFit_of_initial self.totalPages h.bits hpos
    rw [if_neg fun hroom => hrefuse ⟨hpos, hroom⟩] at hnext
    obtain rfl := hfit.unique hnext
    simp [allocate, hfound]

end EnhancedPageAllocator

end Kernel.Memory
