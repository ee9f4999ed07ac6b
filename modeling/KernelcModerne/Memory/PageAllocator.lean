import KernelcModerne.Lib.Packing
import KernelcModerne.Lib.Word64
import KernelcModerne.Memory.PageScan

namespace Kernel.Memory

structure PageAllocator where
  bitmap : PageBitmap
  memoryStart : Nat
  totalPages : Nat
  freePages : Nat

namespace PageAllocator

def PAGE_SIZE : Nat := 4096

/-- The allocator after `initialize(start, memorySize)`. -/
def initialized (start memorySize : Nat) : PageAllocator :=
  let totalPages := memorySize / PAGE_SIZE
  { bitmap := .zeroed ((totalPages + 7) / 8)
    memoryStart := start
    totalPages
    freePages := totalPages }

def getPageIndex (self : PageAllocator) (address : Nat) : Nat :=
  Word64.sub address self.memoryStart / PAGE_SIZE

/-- `(size + PAGE_SIZE - 1) / PAGE_SIZE`, where the sum wraps. -/
def pageCount (size : Nat) : Nat := Word64.add size (PAGE_SIZE - 1) / PAGE_SIZE

/-- A granted request answers its address, `return nullptr` is `none`. -/
def allocate (self : PageAllocator) (size : Nat) : Option (PageAllocator × Option Nat) :=
  let count := pageCount size
  (self.bitmap.findPages count self.totalPages 0 0 0).bind fun
    | some startPage =>
      (self.bitmap.setRange startPage count true).map fun bitmap =>
        ({ self with bitmap, freePages := Word64.sub self.freePages count },
          some (Word64.add self.memoryStart (Word64.mul startPage PAGE_SIZE)))
    | none => some (self, none)

def free (self : PageAllocator) (address size : Nat) : Option PageAllocator :=
  let count := pageCount size
  let startPage := self.getPageIndex address
  (self.bitmap.setRange startPage count false).map fun bitmap =>
    { self with bitmap, freePages := Word64.add self.freePages count }

/-- The allocator holds the packing `p`: each page below `totalPages` has its
bit set exactly when `p` covers it, `freePages` counts the others, and the
buffer has a bit for every page. -/
structure Holds (allocator : PageAllocator) (p : Packing allocator.totalPages) : Prop where
  covered : allocator.totalPages ≤ 8 * allocator.bitmap.size
  pages_le : allocator.totalPages ≤ 2 ^ 52
  bits : p.RepresentedBy allocator.bitmap.bit
  free : allocator.freePages = p.freeCount

theorem initialized_holds {start memorySize : Nat} (hsize : memorySize < 2 ^ 64) :
    (initialized start memorySize).Holds (.empty _) where
  covered := by
    simp only [initialized, PageBitmap.zeroed]
    omega
  pages_le := by
    simp only [initialized, PAGE_SIZE]
    omega
  bits i _ := by simp [initialized]
  free := by simp [initialized]

theorem pageCount_lt (size : Nat) : pageCount size ≤ 2 ^ 52 := by
  have := Word64.add_lt size (PAGE_SIZE - 1)
  unfold pageCount PAGE_SIZE at *
  omega

/-- The address handed out for a page leads `free` back to that page, even
where the region wraps around the address space. -/
theorem getPageIndex_address (self : PageAllocator) (startPage : Nat) (hpage : startPage < 2 ^ 52) :
    self.getPageIndex (Word64.add self.memoryStart (Word64.mul startPage PAGE_SIZE)) = startPage := by
  have hmul : Word64.mul startPage PAGE_SIZE = startPage * PAGE_SIZE :=
    Word64.mul_eq_of_lt (by unfold PAGE_SIZE; omega)
  rw [getPageIndex, hmul, Word64.sub_add_cancel_left (by unfold PAGE_SIZE; omega)]
  exact Nat.mul_div_cancel startPage (by decide)

theorem Holds.freePages_le {self : PageAllocator} {p : Packing self.totalPages} (h : self.Holds p) :
    self.freePages ≤ self.totalPages := by
  rw [h.free]
  exact (Finset.card_filter_le _ _).trans (Finset.card_range _).le

/-- On an allocator that holds a packing `allocate` reads and writes inside the
bitmap. It answers the address of the first fit and then holds the packing with
that extent placed, or it answers null and changes nothing. -/
theorem allocate_spec {self : PageAllocator} {p : Packing self.totalPages} (h : self.Holds p)
    (size : Nat) :
    (∃ startPage bitmap, ∃ placed : Packing self.totalPages,
      let after : PageAllocator :=
        { self with bitmap, freePages := Word64.sub self.freePages (pageCount size) }
      self.allocate size =
          some (after, some (Word64.add self.memoryStart (Word64.mul startPage PAGE_SIZE))) ∧
        Extent.IsFirstFit self.bitmap.bit self.totalPages (pageCount size) (some startPage) ∧
        placed.live = ⟨startPage, pageCount size⟩ :: p.live ∧ after.Holds placed) ∨
    self.allocate size = some (self, none) ∧
      (0 < pageCount size →
        Extent.IsFirstFit self.bitmap.bit self.totalPages (pageCount size) none) := by
  by_cases hzero : pageCount size = 0
  · refine .inr ⟨?_, fun hpos => by omega⟩
    simp [allocate, hzero, PageBitmap.findPages_zero h.covered]
  · have hpos : 0 < pageCount size := Nat.pos_of_ne_zero hzero
    obtain ⟨found, hfound, hfit⟩ := PageBitmap.findPages_spec h.covered hpos
    cases found with
    | none => exact .inr ⟨by simp [allocate, hfound], fun _ => hfit⟩
    | some startPage =>
      have hfree := hfit.1
      have hinside := hfree.1
      have hstop : startPage + pageCount size ≤ self.totalPages := hinside
      have hcovered := h.covered
      obtain ⟨bitmap, hset, hsize, hbit⟩ := self.bitmap.setRange_spec startPage
        (pageCount size) true (by omega)
      have hapart := h.bits.apart_of_free hfree
      have hcount := p.freeCount_place _ hpos hinside hapart
      have hle := h.freePages_le
      have hpages := h.pages_le
      have hfreePages := h.free
      refine .inl ⟨startPage, bitmap, p.place _ hpos hinside hapart, by simp [allocate, hfound, hset],
        hfit, rfl, by simpa only [hsize] using hcovered, hpages, ?_, ?_⟩
      · exact h.bits.place hpos hinside hapart hbit
      · simp only at hcount ⊢
        rw [Word64.sub_eq_of_le (by omega) (by omega)]
        omega

/-- Freeing a live extent by an address of its first page and a size of as many
pages gives it back. -/
theorem free_spec {self : PageAllocator} {p : Packing self.totalPages} (h : self.Holds p)
    {address size : Nat} (hlive : ⟨self.getPageIndex address, pageCount size⟩ ∈ p.live) :
    ∃ bitmap,
      let after : PageAllocator :=
        { self with bitmap, freePages := Word64.add self.freePages (pageCount size) }
      self.free address size = some after ∧
        after.Holds (p.release ⟨self.getPageIndex address, pageCount size⟩) := by
  have hcovered := h.covered
  have hstop := p.inside _ hlive
  rw [Extent.stop_mk] at hstop
  obtain ⟨bitmap, hset, hsize, hbit⟩ := self.bitmap.setRange_spec
    (self.getPageIndex address) (pageCount size) false (by omega)
  refine ⟨bitmap, by simp [free, hset], by simpa only [hsize] using hcovered, h.pages_le, ?_, ?_⟩
  · exact h.bits.release hlive hbit
  · have hcount := Packing.freeCount_release hlive
    have hle := h.freePages_le
    have hpages := h.pages_le
    have hcountLt := pageCount_lt size
    simp only at hcount ⊢
    rw [Word64.add_eq_of_lt (by omega), h.free, hcount]

end PageAllocator

end Kernel.Memory
