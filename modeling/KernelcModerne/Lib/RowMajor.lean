import Mathlib.Tactic.Ring

/-! Rows of `width` cells, one behind the other. -/

namespace RowMajor

/-- The place of the cell `x` of row `y`. -/
def place (width x y : Int) : Int := y * width + x

variable {width height x x' y y' : Int}

theorem place_nonneg (hx : 0 ≤ x) (hwidth : 0 ≤ width) (hy : 0 ≤ y) : 0 ≤ place width x y :=
  Int.add_nonneg (Int.mul_nonneg hy hwidth) hx

/-- The first `height` rows end at `width * height`. -/
theorem place_lt (hx : x < width) (hwidth : 0 ≤ width) (hy : y < height) :
    place width x y < width * height := by
  calc y * width + x
    _ < y * width + width := by omega
    _ = width * (y + 1) := by ring
    _ ≤ width * height := Int.mul_le_mul_of_nonneg_left (by omega) hwidth

theorem place_ediv (hx : 0 ≤ x) (hlt : x < width) : place width x y / width = y := by
  rw [place, Int.add_comm, Int.add_mul_ediv_right x y (by omega), Int.ediv_eq_zero_of_lt hx hlt, Int.zero_add]

theorem place_emod (hx : 0 ≤ x) (hlt : x < width) : place width x y % width = x := by
  rw [place, Int.add_comm, Int.add_mul_emod_self_right, Int.emod_eq_of_lt hx hlt]

/-- Two cells of the rows have two places. -/
theorem place_inj (hx : 0 ≤ x) (hlt : x < width) (hx' : 0 ≤ x') (hlt' : x' < width)
    (h : place width x y = place width x' y') : x = x' ∧ y = y' := by
  constructor
  · rw [← place_emod (y := y) hx hlt, h, place_emod hx' hlt']
  · rw [← place_ediv (y := y) hx hlt, h, place_ediv hx' hlt']

/-- Every place before `width * height` is that of a cell. -/
theorem exists_place {n : Int} (hn : 0 ≤ n) (hlt : n < width * height) (hnonneg : 0 ≤ width) :
    ∃ x y, 0 ≤ x ∧ x < width ∧ 0 ≤ y ∧ y < height ∧ place width x y = n := by
  have hwidth : 0 < width := by
    by_contra hzero
    obtain rfl : width = 0 := by omega
    omega
  refine ⟨n % width, n / width, Int.emod_nonneg n (by omega), Int.emod_lt_of_pos n hwidth,
    Int.ediv_nonneg hn (by omega), ?_, ?_⟩
  · exact Int.ediv_lt_of_lt_mul hwidth (by rwa [Int.mul_comm])
  · exact Int.ediv_mul_add_emod n width

end RowMajor
