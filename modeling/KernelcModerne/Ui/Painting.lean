import KernelcModerne.Lib.Footprint
import KernelcModerne.Ui.Canvas

open Transition

namespace UI

/-- What `getBounds` answers. -/
structure WidgetBounds where
  x : Int32
  y : Int32
  width : Int32
  height : Int32

namespace Canvas

variable (beyond : Nat → UInt8) {self : Canvas}

/-- The dots of a character. -/
def charArea (x y : Int32) (c : UInt8) (px py : Int) : Prop :=
  ∃ dy, (0 ≤ dy ∧ dy < CHAR_HEIGHT) ∧ ∃ dx, (0 ≤ dx ∧ dx < CHAR_WIDTH) ∧
    HasDot beyond c dx dy ∧ px = (x + dx).toInt ∧ py = (y + dy).toInt

/-- The dots of a text. -/
def textArea (y : Int32) : Int32 → List UInt8 → Int → Int → Prop
  | _, [], _, _ => False
  | x, c :: text, px, py => charArea beyond x y c px py ∨ textArea y (x + (CHAR_WIDTH + 1)) text px py

theorem drawText_cons (self : Canvas) (x y : Int32) (c : UInt8) (text : List UInt8) (color : UInt32) :
    self.drawText beyond x y (c :: text) color = (self.drawChar beyond x y c color).bind fun canvas =>
      canvas.drawText beyond (x + (CHAR_WIDTH + 1)) y text color := by
  simp only [drawText, run_cons, drawNext]
  cases self.drawChar beyond x y c color <;> rfl

theorem drawText_paints (y : Int32) (color : UInt32) (text : List UInt8) (x : Int32) :
    Paints color (textArea beyond y x text) fun canvas => canvas.drawText beyond x y text color := by
  intro canvas hfits
  induction text generalizing x canvas with
  | nil => exact ⟨canvas, rfl, Painted.refl color canvas⟩
  | cons c text ih =>
    obtain ⟨next, hnext, hchar⟩ := drawChar_paints beyond x y c color canvas hfits
    obtain ⟨after, hafter, htext⟩ := ih (x + (CHAR_WIDTH + 1)) next (hchar.fits hfits)
    refine ⟨after, ?_, hchar.trans htext⟩
    simp only [drawText_cons, hnext, Option.bind_some, hafter]

def Op.color : Op → UInt32
  | .drawPixel _ _ color => color
  | .drawRect _ _ _ _ color => color
  | .drawText _ _ _ color => color

/-- The points that a call gives its color, if they lie in the canvas. -/
def Op.area : Op → Int → Int → Prop
  | .drawPixel x y _, px, py => px = x.toInt ∧ py = y.toInt
  | .drawRect x y w h _, px, py => (x.toInt ≤ px ∧ px < (x + w).toInt) ∧ y.toInt ≤ py ∧ py < (y + h).toInt
  | .drawText x y text _, px, py => textArea beyond y x text px py

theorem step_paints (op : Op) : Paints op.color (op.area beyond) fun canvas => canvas.step beyond op := by
  cases op with
  | drawPixel x y color => exact drawPixel_paints x y color
  | drawRect x y w h color => exact drawRect_paints x y w h color
  | drawText x y text color => exact drawText_paints beyond y color text x

/-- A canvas of the given size, whose pixels can be counted in `int`. -/
structure Sized (width height : Int32) (canvas : Canvas) : Prop where
  fits : canvas.Fits
  width_eq : canvas.width = width
  height_eq : canvas.height = height

theorem Sized.painted {width height : Int32} {color : UInt32} {area : Int → Int → Prop} {before after : Canvas}
    (h : Sized width height before) (hpainted : Painted color area before after) : Sized width height after :=
  ⟨hpainted.fits h.fits, hpainted.width_eq.trans h.width_eq, hpainted.height_eq.trans h.height_eq⟩

/-- Two canvases of one size have the same points. -/
theorem Sized.inside_iff {before after : Canvas} {px py : Int} (h : Sized before.width before.height after) :
    after.Inside px py ↔ before.Inside px py := by
  rw [Inside, Inside, h.width_eq, h.height_eq]

/-- What is painted on two canvases of one size leaves them equal where they were. -/
theorem Painted.pixel_eq {color : UInt32} {area : Int → Int → Prop} {before after before' after' : Canvas}
    {px py : Int} (h : Painted color area before after) (h' : Painted color area before' after')
    (hwidth : before.width = before'.width) (hheight : before.height = before'.height)
    (hpixel : before.pixel px py = before'.pixel px py) : after.pixel px py = after'.pixel px py := by
  by_cases harea : area px py
  · by_cases hinside : before.Inside px py
    · have hinside' : before'.Inside px py := by rwa [Inside, ← hwidth, ← hheight]
      rw [h.pixel_area px py harea hinside, h'.pixel_area px py harea hinside']
    · have hinside' : ¬ before'.Inside px py := by rwa [Inside, ← hwidth, ← hheight]
      rw [pixel, pixel, if_neg ((h.inside_iff px py).not.mpr hinside),
        if_neg ((h'.inside_iff px py).not.mpr hinside')]
  · rw [h.pixel_rest px py harea, h'.pixel_rest px py harea, hpixel]

/-- The calls are pointwise on the canvases of one size. -/
theorem pointwise_step (width height : Int32) :
    Footprint.Pointwise (Sized width height) (fun canvas (point : Int × Int) => canvas.pixel point.1 point.2)
      (step beyond) fun op point => op.area beyond point.1 point.2 where
  total canvas op hsized := by
    obtain ⟨after, hstep, hpainted⟩ := step_paints beyond op canvas hsized.fits
    exact ⟨after, hstep, hsized.painted hpainted⟩
  frame canvas op after point hsized hstep hout := by
    obtain ⟨after', hstep', hpainted⟩ := step_paints beyond op canvas hsized.fits
    obtain rfl : after' = after := Option.some.inj (hstep'.symm.trans hstep)
    exact hpainted.pixel_rest point.1 point.2 hout
  agree canvas canvas' op after after' point hsized hsized' hstep hstep' hpixel := by
    obtain ⟨next, hnext, hpainted⟩ := step_paints beyond op canvas hsized.fits
    obtain ⟨next', hnext', hpainted'⟩ := step_paints beyond op canvas' hsized'.fits
    obtain rfl : next = after := Option.some.inj (hnext.symm.trans hstep)
    obtain rfl : next' = after' := Option.some.inj (hnext'.symm.trans hstep')
    exact hpainted.pixel_eq hpainted' (hsized.width_eq.trans hsized'.width_eq.symm)
      (hsized.height_eq.trans hsized'.height_eq.symm) hpixel

/-- Every sequence of calls is defined on a canvas that fits. -/
theorem Sized.run {width height : Int32} (h : Sized width height self) (ops : List Op) :
    ∃ after, run (step beyond) self ops = some after ∧ Sized width height after :=
  run_total (Sized width height) (pointwise_step beyond width height).total ops h

theorem Fits.sized (h : self.Fits) : Sized self.width self.height self := ⟨h, rfl, rfl⟩

variable {beyond}

/-- Calls of one color paint what any of them does. -/
theorem run_paints {color : UInt32} {ops : List Op} (hcolor : ∀ op ∈ ops, op.color = color) :
    Paints color (fun px py => ∃ op ∈ ops, op.area beyond px py) fun canvas => run (step beyond) canvas ops := by
  intro canvas hfits
  induction ops generalizing canvas with
  | nil =>
    refine ⟨canvas, rfl, (Painted.refl color canvas).congr fun px py => ?_⟩
    simp
  | cons op ops ih =>
    rw [List.forall_mem_cons] at hcolor
    obtain ⟨next, hnext, hpainted⟩ := step_paints beyond op canvas hfits
    rw [hcolor.1] at hpainted
    obtain ⟨after, hafter, hrest⟩ := ih hcolor.2 next (hpainted.fits hfits)
    refine ⟨after, ?_, (hpainted.trans hrest).congr fun px py => ?_⟩
    · simp only [run_cons, hnext, Option.bind_some, hafter]
    · rw [List.exists_mem_cons_iff]

variable {x y : Int32} {text : List UInt8} {px py : Int}

/-- A text has 8 rows. -/
theorem textArea_row (h : textArea beyond y x text px py) :
    ∃ dy : Int32, (0 ≤ dy ∧ dy < CHAR_HEIGHT) ∧ py = (y + dy).toInt := by
  induction text generalizing x with
  | nil => exact h.elim
  | cons c text ih =>
    obtain ⟨dy, hdy, _, _, _, _, hpy⟩ | hrest := h
    · exact ⟨dy, hdy, hpy⟩
    · exact ih hrest

/-- It lies between its first row and the 8th, where those can be counted. -/
theorem textArea_bounds (h : textArea beyond y x text px py) (hy : y.toInt + 8 ≤ 2 ^ 31) :
    y.toInt ≤ py ∧ py < y.toInt + 8 := by
  obtain ⟨dy, ⟨hnonneg, hlt⟩, rfl⟩ := textArea_row h
  rw [Int32.le_iff_toInt_le, show (0 : Int32).toInt = 0 from rfl] at hnonneg
  rw [Int32.lt_iff_toInt_lt, show CHAR_HEIGHT.toInt = 8 from rfl] at hlt
  have hlow := y.le_toInt
  have hfits : SumFits y dy := ⟨by omega, by omega⟩
  rw [hfits.toInt_add]
  omega

/-- Its characters are 7 columns apart. -/
theorem textArea_columns (h : textArea beyond y x text px py) (hx : x.toInt + 7 * text.length ≤ 2 ^ 31) :
    x.toInt ≤ px ∧ px < x.toInt + 7 * text.length := by
  induction text generalizing x with
  | nil => exact h.elim
  | cons c text ih =>
    have hlow := x.le_toInt
    rw [List.length_cons] at hx ⊢
    obtain ⟨_, _, dx, ⟨hnonneg, hlt⟩, _, rfl, _⟩ | hrest := h
    · rw [Int32.le_iff_toInt_le, show (0 : Int32).toInt = 0 from rfl] at hnonneg
      rw [Int32.lt_iff_toInt_lt, show CHAR_WIDTH.toInt = 6 from rfl] at hlt
      have hfits : SumFits x dx := ⟨by omega, by omega⟩
      rw [hfits.toInt_add]
      omega
    · cases text with
      | nil => exact hrest.elim
      | cons c' text =>
        have hseven : (CHAR_WIDTH + 1).toInt = 7 := rfl
        have hnext : (x + (CHAR_WIDTH + 1)).toInt = x.toInt + 7 := by
          rw [SumFits.toInt_add ⟨by rw [hseven]; omega, by rw [hseven]; simp only [List.length_cons] at hx; omega⟩,
            hseven]
        obtain ⟨hfirst, hlast⟩ := ih hrest (by rw [hnext]; omega)
        omega

end Canvas

end UI
