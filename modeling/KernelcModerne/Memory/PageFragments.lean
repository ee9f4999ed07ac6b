import KernelcModerne.Lib.MaximalRuns
import KernelcModerne.Memory.FirstFitAllocation
import KernelcModerne.Memory.PageAllocatorRuns

open Transition

namespace Kernel.Memory

namespace PageBitmap

/-- The loop of `getFragmentationRatio` at page `i`, with `remaining` pages to go. -/
def countFragments (bitmap : PageBitmap) :
    (remaining i fragments : Nat) → (inFragment : Bool) → Option Nat
  | 0, _, fragments, _ => some fragments
  | remaining + 1, i, fragments, inFragment =>
    (bitmap.getBit i).bind fun used =>
      if !used && !inFragment then countFragments bitmap remaining (i + 1) (fragments + 1) true
      else if used then countFragments bitmap remaining (i + 1) fragments false
      else countFragments bitmap remaining (i + 1) fragments inFragment

private theorem countFragments_scan {bitmap : PageBitmap} {total : Nat} (hbound : total ≤ 8 * bitmap.size)
    (remaining : Nat) : ∀ i fragments inFragment, i + remaining = total →
      Extent.RunScan bitmap.bit i fragments inFragment →
      bitmap.countFragments remaining i fragments inFragment = some (Extent.runsBegun bitmap.bit total) := by
  induction remaining with
  | zero =>
    intro i fragments inFragment htotal hscan
    obtain rfl : i = total := by omega
    rw [countFragments, hscan.begun]
  | succ remaining ih =>
    intro i fragments inFragment htotal hscan
    have hread : bitmap.getBit i = some (bitmap.bit i) := getBit_eq_bit (by omega)
    rw [countFragments, hread, Option.bind_some]
    cases hused : bitmap.bit i with
    | true => exact ih (i + 1) fragments false (by omega) (hscan.step_used hused)
    | false =>
      cases inFragment with
      | true => exact ih (i + 1) fragments true (by omega) (hscan.step_inside hused)
      | false => exact ih (i + 1) (fragments + 1) true (by omega) (hscan.step_begin hused)

/-- The loop counts the runs of clear bits, reading only bits inside the buffer. -/
theorem countFragments_spec {bitmap : PageBitmap} {total : Nat} (hbound : total ≤ 8 * bitmap.size) :
    bitmap.countFragments total 0 0 false = some (Extent.runsBegun bitmap.bit total) :=
  countFragments_scan hbound total 0 0 false (Nat.zero_add total) (.init bitmap.bit)

theorem size_of_setBit {bitmap after : PageBitmap} {index : Nat} {value : Bool}
    (hset : bitmap.setBit index value = some after) : after.size = bitmap.size := by
  rw [setBit, Option.map_eq_some_iff] at hset
  obtain ⟨byte, _, rfl⟩ := hset
  rfl

theorem size_of_setRange {bitmap after : PageBitmap} {startPage pageCount : Nat} {value : Bool}
    (hset : bitmap.setRange startPage pageCount value = some after) : after.size = bitmap.size :=
  run_invariant (fun written => written.size = bitmap.size)
    (fun _ _ _ hsize hwrite => (size_of_setBit hwrite).trans hsize) (List.range pageCount) rfl hset

end PageBitmap

namespace PageAllocator

/-- The two numbers whose quotient `getFragmentationRatio` returns. -/
def getFragmentationRatio (self : PageAllocator) : Option (Nat × Nat) :=
  (self.bitmap.countFragments self.totalPages 0 0 false).map fun fragments => (fragments, self.freePages)

/-- The loop ends with the number of maximal runs of free pages, which is at most
the number of free pages and zero only with it. -/
def CountsFragments (self : PageAllocator) : Prop :=
  ∃ fragments, self.getFragmentationRatio = some (fragments, self.freePages) ∧
    fragments = {run | Extent.IsMaximalRun self.bitmap.bit self.totalPages run}.ncard ∧
    fragments ≤ self.freePages ∧ (fragments = 0 ↔ self.freePages = 0)

/-- A buffer with a bit for every page and a right counter is all it takes. -/
theorem countsFragments_of_free {self : PageAllocator} (hcovered : self.totalPages ≤ 8 * self.bitmap.size)
    (hfree : self.freePages = self.clearPages) : self.CountsFragments := by
  refine ⟨Extent.runsBegun self.bitmap.bit self.totalPages, ?_, ?_, ?_, ?_⟩
  · rw [getFragmentationRatio, PageBitmap.countFragments_spec hcovered, Option.map_some]
  · exact (Extent.ncard_isMaximalRun self.bitmap.bit self.totalPages).symm
  · rw [hfree]
    exact Extent.runsBegun_le self.bitmap.bit self.totalPages
  · rw [hfree]
    exact Extent.runsBegun_eq_zero_iff self.bitmap.bit self.totalPages

/-- A call with any arguments. -/
inductive Call where
  | allocate (size : UInt64)
  | free (address size : UInt64)

def call (self : PageAllocator) : Call → Option PageAllocator
  | .allocate size => (self.allocate size.toNat).map Prod.fst
  | .free address size => self.free address.toNat size.toNat

theorem allocate_cases {self after : PageAllocator} {size : Nat} {answer : Option Nat}
    (hallocate : self.allocate size = some (after, answer)) :
    after = self ∨ ∃ startPage bitmap,
      self.bitmap.setRange startPage (pageCount size) true = some bitmap ∧
        after = { self with bitmap, freePages := Word64.sub self.freePages (pageCount size) } := by
  rw [allocate, Option.bind_eq_some_iff] at hallocate
  obtain ⟨found, _, hanswer⟩ := hallocate
  cases found with
  | none =>
    cases hanswer
    exact .inl rfl
  | some startPage =>
    obtain ⟨bitmap, hset, heq⟩ := Option.map_eq_some_iff.mp hanswer
    cases heq
    exact .inr ⟨startPage, bitmap, hset, rfl⟩

/-- No call takes a bit of a page from the buffer. -/
theorem covered_of_call {self after : PageAllocator} (hcovered : self.totalPages ≤ 8 * self.bitmap.size)
    (c : Call) (hcall : self.call c = some after) : after.totalPages ≤ 8 * after.bitmap.size := by
  cases c with
  | allocate size =>
    obtain ⟨⟨after, answer⟩, hallocate, rfl⟩ := Option.map_eq_some_iff.mp hcall
    obtain rfl | ⟨startPage, bitmap, hset, rfl⟩ := allocate_cases hallocate
    · exact hcovered
    · simpa only [PageBitmap.size_of_setRange hset] using hcovered
  | free address size =>
    obtain ⟨bitmap, hset, rfl⟩ := Option.map_eq_some_iff.mp hcall
    simpa only [PageBitmap.size_of_setRange hset] using hcovered

namespace Client

theorem Refines.countsFragments {client : Client} (h : client.Refines) : client.allocator.CountsFragments := by
  obtain ⟨p, hholds, _⟩ := h
  exact countsFragments_of_free hholds.covered (hholds.free.trans hholds.bits.card_clear.symm)

end Client

/-- In every run of calls the fragments are counted right where `freePages` is
right, and it always is where callers free what they have allocated. -/
theorem always_countsFragments (start memorySize : UInt64) :
    (∀ calls, Always call (fun self => self.freePages = self.clearPages → self.CountsFragments)
      (initialized start.toNat memorySize.toNat) calls) ∧
    ∀ ops, Always Client.step (fun client => client.allocator.CountsFragments)
      (Client.initialized start memorySize) ops := by
  constructor
  · intro calls
    have hcovered : Always call (fun self => self.totalPages ≤ 8 * self.bitmap.size)
        (initialized start.toNat memorySize.toNat) calls :=
      always_of_step (fun _ c _ h hcall => covered_of_call h c hcall) calls
        (initialized_holds memorySize.toNat_lt).covered
    exact hcovered.imp fun _ h => countsFragments_of_free h
  · intro ops
    exact (Client.always_refines start memorySize ops).imp fun _ h => h.countsFragments

end PageAllocator

end Kernel.Memory
