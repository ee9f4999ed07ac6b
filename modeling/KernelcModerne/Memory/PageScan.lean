import KernelcModerne.Lib.FirstFit
import KernelcModerne.Memory.PageBitmap

namespace Kernel.Memory.PageBitmap

/-- The marking and freeing loops: `setBit(startPage + j, value)` for each
`j < pageCount`. -/
def setRange (bitmap : PageBitmap) (startPage pageCount : Nat) (value : Bool) : Option PageBitmap :=
  (List.range pageCount).foldlM (fun bitmap j => bitmap.setBit (startPage + j) value) bitmap

/-- The search loop of `allocate` at page `i`, with `remaining` pages to go. -/
def findPages (bitmap : PageBitmap) (pageCount : Nat) :
    (remaining i consecutivePages startPage : Nat) → Option (Option Nat)
  | 0, _, _, _ => some none
  | remaining + 1, i, consecutivePages, startPage =>
    (bitmap.getBit i).bind fun used =>
      if !used then
        let startPage := if consecutivePages = 0 then i else startPage
        let consecutivePages := consecutivePages + 1
        if consecutivePages = pageCount then some (some startPage)
        else findPages bitmap pageCount remaining (i + 1) consecutivePages startPage
      else findPages bitmap pageCount remaining (i + 1) 0 startPage

/-- The loops write exactly the bits of their pages. -/
theorem setRange_spec (bitmap : PageBitmap) (startPage pageCount : Nat) (value : Bool)
    (hbound : startPage + pageCount ≤ 8 * bitmap.size) :
    ∃ after, bitmap.setRange startPage pageCount value = some after ∧ after.size = bitmap.size ∧
      ∀ i, after.bit i = if i ∈ (Extent.mk startPage pageCount).cells then value else bitmap.bit i := by
  induction pageCount with
  | zero =>
    refine ⟨bitmap, rfl, rfl, ?_⟩
    intro i
    rw [if_neg (by simp)]
  | succ count ih =>
    obtain ⟨middle, hmiddle, hmiddleSize, hmiddleBit⟩ := ih (by omega)
    obtain ⟨after, hafter, hafterSize, hafterBit⟩ := middle.setBit_spec (startPage + count)
      value (by omega)
    refine ⟨after, ?_, hafterSize.trans hmiddleSize, ?_⟩
    · rw [setRange] at hmiddle ⊢
      simp [List.range_succ, List.foldlM_append, hmiddle, hafter]
    · intro i
      rw [hafterBit, hmiddleBit]
      simp only [Extent.mem_cells, Extent.stop_mk]
      by_cases hlast : i = startPage + count
      · rw [if_pos hlast, if_pos (by omega)]
      · rw [if_neg hlast]
        congr 1
        apply propext
        omega

private theorem findPages_isFirstFit {bitmap : PageBitmap} {total pageCount : Nat}
    (hbound : total ≤ 8 * bitmap.size) (remaining : Nat) :
    ∀ i consecutivePages startPage, i + remaining = total →
      Extent.ScanInvariant bitmap.bit pageCount i consecutivePages startPage →
      ∃ found, bitmap.findPages pageCount remaining i consecutivePages startPage = some found ∧
        Extent.IsFirstFit bitmap.bit total pageCount found := by
  induction remaining with
  | zero =>
    intro i consecutivePages startPage htotal hscan
    obtain rfl : i = total := by omega
    exact ⟨none, rfl, hscan.exhausted⟩
  | succ remaining ih =>
    intro i consecutivePages startPage htotal hscan
    have hread : bitmap.getBit i = some (bitmap.bit i) := getBit_eq_bit (by omega)
    rw [findPages, hread, Option.bind_some]
    cases hused : bitmap.bit i with
    | true => exact ih (i + 1) 0 startPage (by omega) (hscan.step_used hused)
    | false =>
      by_cases hfull : consecutivePages + 1 = pageCount
      · refine ⟨_, by simp [hfull], hscan.found hused hfull (by omega)⟩
      · simp only [Bool.not_false, if_true, if_neg hfull]
        exact ih _ _ _ (by omega) (hscan.step_free hused hfull)

/-- The search returns the first fit, reading only bits inside the buffer. -/
theorem findPages_spec {bitmap : PageBitmap} {total pageCount : Nat}
    (hbound : total ≤ 8 * bitmap.size) (hcount : 0 < pageCount) :
    ∃ found, bitmap.findPages pageCount total 0 0 0 = some found ∧
      Extent.IsFirstFit bitmap.bit total pageCount found :=
  findPages_isFirstFit hbound total 0 0 0 (by omega) (.init bitmap.bit hcount 0)

/-- A request of no pages is never satisfied: the loop counts before it
compares. -/
theorem findPages_zero {bitmap : PageBitmap} {total : Nat} (hbound : total ≤ 8 * bitmap.size) :
    bitmap.findPages 0 total 0 0 0 = some none := by
  have hloop : ∀ remaining i consecutivePages startPage, i + remaining = total →
      bitmap.findPages 0 remaining i consecutivePages startPage = some none := by
    intro remaining
    induction remaining with
    | zero => intros; rfl
    | succ remaining ih =>
      intro i consecutivePages startPage htotal
      rw [findPages, getBit_eq_bit (by omega), Option.bind_some]
      cases bitmap.bit i with
      | true => exact ih _ _ _ (by omega)
      | false => exact ih _ _ _ (by omega)
  exact hloop total 0 0 0 (by omega)

end Kernel.Memory.PageBitmap
