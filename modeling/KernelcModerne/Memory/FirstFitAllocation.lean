import KernelcModerne.Memory.PageAllocator

namespace Kernel.Memory.PageAllocator

/-- The pages that `size` bytes take, rounded up. -/
def pagesFor (size : Nat) : Nat := (size + (PAGE_SIZE - 1)) / PAGE_SIZE

/-- The number of pages whose bit is clear. -/
def clearPages (self : PageAllocator) : Nat :=
  ((Finset.range self.totalPages).filter fun i => self.bitmap.bit i = false).card

/-- The pages are memory other than null, the buffer has a bit for each of them,
and `freePages` counts those that are clear. -/
structure WellFormed (allocator : PageAllocator) : Prop where
  covered : allocator.totalPages ≤ 8 * allocator.bitmap.size
  start : 0 < allocator.totalPages → 0 < allocator.memoryStart
  region : allocator.memoryStart + PAGE_SIZE * allocator.totalPages ≤ 2 ^ 64
  free : allocator.freePages = allocator.clearPages

/-- A pointer other than null is that of the first fit, whose pages alone become
used. -/
structure GrantsFirstFit (before after : PageAllocator) (size pointer startPage : Nat) : Prop where
  address : pointer = before.memoryStart + PAGE_SIZE * startPage
  fit : Extent.IsFirstFit before.bitmap.bit before.totalPages (pagesFor size) (some startPage)
  bits : ∀ i, after.bitmap.getBit i =
    if i ∈ (Extent.mk startPage (pagesFor size)).cells then some true else before.bitmap.getBit i
  free : after.freePages + pagesFor size = before.freePages
  memoryStart : after.memoryStart = before.memoryStart
  totalPages : after.totalPages = before.totalPages

/-- What a call of `allocate` that returns `pointer` does. -/
structure AllocatesFirstFit (before after : PageAllocator) (size pointer : Nat) : Prop where
  granted : pointer ≠ 0 → ∃ startPage, before.GrantsFirstFit after size pointer startPage
  refused : pointer = 0 → after = before ∧
    (size = 0 ∨ Extent.IsFirstFit before.bitmap.bit before.totalPages (pagesFor size) none)
  wraps : 2 ^ 64 ≤ size + (PAGE_SIZE - 1) → pointer = 0

theorem initialized_wellFormed {start memorySize : Nat} (hstart : 0 < start)
    (hregion : start + memorySize ≤ 2 ^ 64) : (initialized start memorySize).WellFormed where
  covered := (initialized_holds (by omega)).covered
  start _ := hstart
  region := by
    simp only [initialized, PAGE_SIZE]
    omega
  free := by simp [clearPages, initialized]

theorem WellFormed.totalPages_lt {self : PageAllocator} (h : self.WellFormed) : self.totalPages < 2 ^ 52 := by
  have hstart := h.start
  have hregion := h.region
  unfold PAGE_SIZE at hregion
  omega

theorem pagesFor_pos {size : Nat} (hsize : 0 < size) : 0 < pagesFor size := by
  unfold pagesFor PAGE_SIZE
  omega

/-- Where the sum of `pageCount` does not wrap it counts the pages. -/
theorem pageCount_eq_pagesFor {size : Nat} (hsize : size + (PAGE_SIZE - 1) < 2 ^ 64) :
    pageCount size = pagesFor size := by
  rw [pageCount, Word64.add_eq_of_lt hsize, pagesFor]

/-- Where it wraps it counts none. -/
theorem pageCount_eq_zero {size : Nat} (hwraps : 2 ^ 64 ≤ size + (PAGE_SIZE - 1)) (hsize : size < 2 ^ 64) :
    pageCount size = 0 := by
  unfold pageCount Word64.add PAGE_SIZE at *
  omega

/-- No run is as long as a size that wraps. -/
theorem WellFormed.none_fits {self : PageAllocator} (h : self.WellFormed) {size : Nat}
    (hwraps : 2 ^ 64 ≤ size + (PAGE_SIZE - 1)) :
    Extent.IsFirstFit self.bitmap.bit self.totalPages (pagesFor size) none := by
  intro startPage hfree
  have htotal := h.totalPages_lt
  have hstop : startPage + pagesFor size ≤ self.totalPages := hfree.1
  unfold pagesFor PAGE_SIZE at *
  omega

/-- The loop that marks the pages writes their bits only. -/
theorem getBit_setRange {bitmap after : PageBitmap} {startPage count : Nat} (hsize : after.size = bitmap.size)
    (hbound : startPage + count ≤ 8 * bitmap.size)
    (hbit : ∀ i, after.bit i = if i ∈ (Extent.mk startPage count).cells then true else bitmap.bit i) (i : Nat) :
    after.getBit i = if i ∈ (Extent.mk startPage count).cells then some true else bitmap.getBit i := by
  by_cases hinside : i / 8 < bitmap.size
  · rw [PageBitmap.getBit_eq_bit (hsize ▸ hinside), PageBitmap.getBit_eq_bit hinside, hbit]
    split
    · rfl
    · rfl
  · rw [PageBitmap.getBit_eq_none (by omega), PageBitmap.getBit_eq_none (by omega), if_neg]
    rw [Extent.mem_cells, Extent.stop_mk]
    omega

/-- The pointer to a page is not null, and its computation does not wrap. -/
theorem WellFormed.address_eq {self : PageAllocator} (h : self.WellFormed) {startPage : Nat}
    (hpage : startPage < self.totalPages) :
    Word64.add self.memoryStart (Word64.mul startPage PAGE_SIZE) = self.memoryStart + PAGE_SIZE * startPage ∧
      self.memoryStart + PAGE_SIZE * startPage ≠ 0 := by
  have hstart := h.start (by omega)
  have hregion := h.region
  have hbelow := Nat.mul_lt_mul_of_pos_left hpage (show 0 < PAGE_SIZE by decide)
  rw [Word64.mul_eq_of_lt (by rw [Nat.mul_comm]; omega), Nat.mul_comm, Word64.add_eq_of_lt (by omega)]
  exact ⟨rfl, by omega⟩

/-- A request of pages answers the first fit, or changes nothing where none fits. -/
theorem WellFormed.allocate_counted {self : PageAllocator} (h : self.WellFormed) {size : Nat}
    (hpages : 0 < pagesFor size) (hcount : pageCount size = pagesFor size) :
    (∃ after pointer startPage, self.allocate size = some (after, some pointer) ∧ pointer ≠ 0 ∧
      self.GrantsFirstFit after size pointer startPage ∧ after.WellFormed) ∨
    self.allocate size = some (self, none) ∧
      Extent.IsFirstFit self.bitmap.bit self.totalPages (pagesFor size) none := by
  have hcovered := h.covered
  obtain ⟨found, hfound, hfit⟩ := PageBitmap.findPages_spec hcovered hpages
  cases found with
  | none => exact .inr ⟨by simp [allocate, hcount, hfound], hfit⟩
  | some startPage =>
    have hstop : startPage + pagesFor size ≤ self.totalPages := hfit.1.1
    obtain ⟨bitmap, hset, hsize, hbit⟩ := self.bitmap.setRange_spec startPage (pagesFor size) true (by omega)
    obtain ⟨haddress, hnull⟩ := h.address_eq (show startPage < self.totalPages by omega)
    have hclear : self.clearPages = ((Finset.range self.totalPages).filter fun i => bitmap.bit i = false).card +
        pagesFor size := Packing.card_clear_marked hfit.1 hpages hbit
    have hfree := h.free
    have htotal : self.clearPages ≤ self.totalPages :=
      (Finset.card_filter_le _ _).trans (Finset.card_range _).le
    have hlt := h.totalPages_lt
    have hsub : Word64.sub self.freePages (pagesFor size) = self.freePages - pagesFor size :=
      Word64.sub_eq_of_le (by omega) (by omega)
    have hleft : self.freePages - pagesFor size =
        ((Finset.range self.totalPages).filter fun i => bitmap.bit i = false).card := by omega
    refine .inl ⟨{ self with bitmap, freePages := self.freePages - pagesFor size },
      self.memoryStart + PAGE_SIZE * startPage, startPage, ?_, hnull, ?_, ?_⟩
    · simp [allocate, hcount, hfound, hset, haddress, hsub]
    · exact ⟨rfl, hfit, getBit_setRange hsize (by omega) hbit, Nat.sub_add_cancel (by omega), rfl, rfl⟩
    · exact ⟨hsize ▸ hcovered, h.start, h.region, hleft⟩

/-- Every request is answered by an exact first fit. -/
theorem allocate_first_fit {self : PageAllocator} (h : self.WellFormed) (size : UInt64) :
    ∃ after answer, self.allocate size.toNat = some (after, answer) ∧
      self.AllocatesFirstFit after size.toNat (answer.getD 0) ∧ after.WellFormed := by
  by_cases hwraps : 2 ^ 64 ≤ size.toNat + (PAGE_SIZE - 1)
  · have hzero := pageCount_eq_zero hwraps size.toNat_lt
    refine ⟨self, none, by simp [allocate, hzero, PageBitmap.findPages_zero h.covered], ⟨?_, ?_, ?_⟩, h⟩
    · exact fun hne => absurd rfl hne
    · exact fun _ => ⟨rfl, .inr (h.none_fits hwraps)⟩
    · exact fun _ => rfl
  · cases Nat.eq_zero_or_pos size.toNat with
    | inl hzero =>
      have hnone : self.allocate size.toNat = some (self, none) := by
        rw [hzero]
        simp [allocate, pageCount, Word64.add, PAGE_SIZE, PageBitmap.findPages_zero h.covered]
      exact ⟨self, none, hnone, ⟨fun hne => absurd rfl hne, fun _ => ⟨rfl, .inl hzero⟩, fun _ => rfl⟩, h⟩
    | inr hpos =>
      cases h.allocate_counted (pagesFor_pos hpos) (pageCount_eq_pagesFor (by omega)) with
      | inl hgranted =>
        obtain ⟨after, pointer, startPage, hrun, hnull, hgrants, hafter⟩ := hgranted
        exact ⟨after, some pointer, hrun,
          ⟨fun _ => ⟨startPage, hgrants⟩, fun hzero => absurd hzero hnull, fun h => absurd h hwraps⟩, hafter⟩
      | inr hrefused =>
        exact ⟨self, none, hrefused.1,
          ⟨fun hne => absurd rfl hne, fun _ => ⟨rfl, .inr hrefused.2⟩, fun _ => rfl⟩, h⟩

/-- Five bytes more than a page, from a region of four pages. -/
theorem allocate_two_pages :
    ∃ after answer, (initialized 0x100000 0x4000).allocate (0x1005 : UInt64).toNat = some (after, answer) ∧
      (initialized 0x100000 0x4000).AllocatesFirstFit after (0x1005 : UInt64).toNat (answer.getD 0) ∧
      after.WellFormed :=
  allocate_first_fit (initialized_wellFormed (by decide) (by decide)) 0x1005

end Kernel.Memory.PageAllocator
