import KernelcModerne.Lib.IntLoop
import KernelcModerne.Lib.RowMajor
import KernelcModerne.Lib.Transition

open Transition

namespace UI

/-- The buffer has the number of pixels that the constructor computes, in `int`. -/
structure Canvas where
  width : Int32
  height : Int32
  buffer : List UInt32
  dirty : Bool
  length_buffer : (buffer.length : Int) = (width * height).toInt

namespace Canvas

/-- `Canvas(width, height)`. A negative product is as a `size_t` more than a
`std::vector` can have, and its constructor throws. -/
def new (width height : Int32) : Option Canvas :=
  if h : 0 ≤ (width * height).toInt then
    some
      { width, height
        buffer := List.replicate (width * height).toInt.toNat 0
        dirty := false
        length_buffer := by rw [List.length_replicate, Int.toNat_of_nonneg h] }
  else none

/-- The value of an `int` as a `size_t`. -/
def toSizeT (n : Int32) : Nat := (n.toInt % 2 ^ 64).toNat

/-- A write past the buffer is undefined. -/
def drawPixel (self : Canvas) (x y : Int32) (color : UInt32) : Option Canvas :=
  if x ≥ 0 ∧ x < self.width ∧ y ≥ 0 ∧ y < self.height then
    let index := toSizeT (y * self.width + x)
    if index < self.buffer.length then
      some
        { self with
          buffer := self.buffer.set index color
          dirty := true
          length_buffer := by rw [List.length_set, self.length_buffer] }
    else none
  else some self

def drawRect (self : Canvas) (x y w h : Int32) (color : UInt32) : Option Canvas :=
  IntLoop.run (fun i => IntLoop.run (fun j canvas => canvas.drawPixel i j color) y (y + h)) x (x + w) self

def fontData : List (List UInt8) :=
  [[0x00, 0x00, 0x00, 0x00, 0x00, 0x00, 0x00, 0x00],
    -- A, B, C
    [0x1C, 0x22, 0x22, 0x3E, 0x22, 0x22, 0x22, 0x00],
    [0x3C, 0x22, 0x22, 0x3C, 0x22, 0x22, 0x3C, 0x00],
    [0x1C, 0x22, 0x20, 0x20, 0x20, 0x22, 0x1C, 0x00],
    -- 0, 1
    [0x1C, 0x22, 0x26, 0x2A, 0x32, 0x22, 0x1C, 0x00],
    [0x08, 0x18, 0x08, 0x08, 0x08, 0x08, 0x1C, 0x00],
    -- the punctuation
    [0x00, 0x00, 0x00, 0x00, 0x00, 0x00, 0x08, 0x00],
    [0x00, 0x00, 0x00, 0x00, 0x00, 0x08, 0x08, 0x10],
    [0x00, 0x00, 0x08, 0x00, 0x00, 0x08, 0x00, 0x00]]

/-- The row of `fontData` for a character. The table does not have them all. -/
def fontIndex (c : UInt8) : Nat :=
  if c = ' '.toUInt8 then 0
  else if 'A'.toUInt8 ≤ c ∧ c ≤ 'Z'.toUInt8 then 1 + (c - 'A'.toUInt8).toNat
  else if '0'.toUInt8 ≤ c ∧ c ≤ '9'.toUInt8 then 27 + (c - '0'.toUInt8).toNat
  else if c = '.'.toUInt8 then 37
  else if c = ','.toUInt8 then 38
  else if c = ':'.toUInt8 then 39
  else 0

/-- `beyond` is what memory holds behind the table, by the distance from the
table's beginning. -/
def getFontBitmap (beyond : Nat → UInt8) (c : UInt8) (dy : Nat) : UInt8 :=
  let offset := 8 * fontIndex c + dy
  fontData.flatten.getD offset (beyond offset)

def CHAR_WIDTH : Int32 := 6
def CHAR_HEIGHT : Int32 := 8

/-- The loops over the pixels of a character. -/
def drawChar (beyond : Nat → UInt8) (self : Canvas) (x y : Int32) (c : UInt8) (color : UInt32) : Option Canvas :=
  IntLoop.run (fun dy => IntLoop.run (fun dx canvas =>
      if (getFontBitmap beyond c dy.toInt.toNat).toUInt32.toInt32 &&& (1 <<< (CHAR_WIDTH - 1 - dx)) ≠ 0 then
        canvas.drawPixel (x + dx) (y + dy) color
      else some canvas) 0 CHAR_WIDTH) 0 CHAR_HEIGHT self

/-- The canvas and `currentX`, after one more character. -/
def drawNext (beyond : Nat → UInt8) (y : Int32) (color : UInt32) (drawn : Canvas × Int32) (c : UInt8) :
    Option (Canvas × Int32) :=
  (drawn.1.drawChar beyond drawn.2 y c color).map fun canvas => (canvas, drawn.2 + (CHAR_WIDTH + 1))

def drawText (beyond : Nat → UInt8) (self : Canvas) (x y : Int32) (text : List UInt8) (color : UInt32) :
    Option Canvas :=
  (run (drawNext beyond y color) (self, x) text).map Prod.fst

inductive Op where
  | drawPixel (x y : Int32) (color : UInt32)
  | drawRect (x y w h : Int32) (color : UInt32)
  | drawText (x y : Int32) (text : List UInt8) (color : UInt32)

def step (beyond : Nat → UInt8) (self : Canvas) : Op → Option Canvas
  | .drawPixel x y color => self.drawPixel x y color
  | .drawRect x y w h color => self.drawRect x y w h color
  | .drawText x y text color => self.drawText beyond x y text color

/-- The pixels can be counted in `int`. -/
structure Fits (canvas : Canvas) : Prop where
  width_nonneg : 0 ≤ canvas.width.toInt
  height_nonneg : 0 ≤ canvas.height.toInt
  pixels_lt : canvas.width.toInt * canvas.height.toInt < 2 ^ 31

/-- The point lies in the canvas. -/
def Inside (self : Canvas) (px py : Int) : Prop :=
  (0 ≤ px ∧ px < self.width.toInt) ∧ 0 ≤ py ∧ py < self.height.toInt

instance (self : Canvas) (px py : Int) : Decidable (self.Inside px py) :=
  inferInstanceAs (Decidable (_ ∧ _))

/-- The color at a point of the canvas. -/
def pixel (self : Canvas) (px py : Int) : Option UInt32 :=
  if self.Inside px py then self.buffer[(RowMajor.place self.width.toInt px py).toNat]? else none

variable {self : Canvas} {px py : Int}

theorem Fits.length_buffer (h : self.Fits) : (self.buffer.length : Int) = self.width.toInt * self.height.toInt := by
  have hnonneg := Int.mul_nonneg h.width_nonneg h.height_nonneg
  have hlt := h.pixels_lt
  rw [self.length_buffer, Int32.toInt_mul]
  apply Int.bmod_eq_of_le
  · omega
  · omega

/-- The place of a point that lies in the canvas is one of the buffer. -/
theorem Fits.place_bounds (h : self.Fits) (hinside : self.Inside px py) :
    0 ≤ RowMajor.place self.width.toInt px py ∧ RowMajor.place self.width.toInt px py < self.buffer.length := by
  obtain ⟨⟨hx, hxlt⟩, hy, hylt⟩ := hinside
  rw [h.length_buffer]
  exact ⟨RowMajor.place_nonneg hx h.width_nonneg hy, RowMajor.place_lt hxlt h.width_nonneg hylt⟩

/-- The index that `drawPixel` computes, as an `int`. -/
theorem toInt_index (width x y : Int32) :
    (y * width + x).toInt = (RowMajor.place width.toInt x.toInt y.toInt).bmod (2 ^ 32) := by
  rw [Int32.toInt_add, Int32.toInt_mul, Int.bmod_add_bmod, RowMajor.place]

/-- It is the place of its point where that is less than `2 ^ 31`. -/
theorem toSizeT_index {width x y : Int32} (hnonneg : 0 ≤ RowMajor.place width.toInt x.toInt y.toInt)
    (hlt : RowMajor.place width.toInt x.toInt y.toInt < 2 ^ 31) :
    toSizeT (y * width + x) = (RowMajor.place width.toInt x.toInt y.toInt).toNat := by
  rw [toSizeT, toInt_index, Int.bmod_eq_of_le (by omega) (by omega), Int.emod_eq_of_lt hnonneg (by omega)]

theorem inside_iff (self : Canvas) (x y : Int32) :
    (x ≥ 0 ∧ x < self.width ∧ y ≥ 0 ∧ y < self.height) ↔ self.Inside x.toInt y.toInt := by
  have hzero : (0 : Int32).toInt = 0 := rfl
  simp only [ge_iff_le, Int32.le_iff_toInt_le, Int32.lt_iff_toInt_lt, hzero, Inside, and_assoc]

/-- A color has been put on the points of an area that lie in the canvas. -/
structure Painted (color : UInt32) (area : Int → Int → Prop) (before after : Canvas) : Prop where
  width_eq : after.width = before.width
  height_eq : after.height = before.height
  pixel_area : ∀ px py, area px py → before.Inside px py → after.pixel px py = some color
  pixel_rest : ∀ px py, ¬ area px py → after.pixel px py = before.pixel px py

namespace Painted

variable {color : UInt32} {area area' : Int → Int → Prop} {before middle after : Canvas}

theorem inside_iff (h : Painted color area before after) (px py : Int) :
    after.Inside px py ↔ before.Inside px py := by
  rw [Inside, Inside, h.width_eq, h.height_eq]

theorem fits (h : Painted color area before after) (hfits : before.Fits) : after.Fits := by
  obtain ⟨hwidth, hheight, hlt⟩ := hfits
  rw [← h.width_eq, ← h.height_eq] at hlt
  exact ⟨h.width_eq ▸ hwidth, h.height_eq ▸ hheight, hlt⟩

theorem length_eq (h : Painted color area before after) : after.buffer.length = before.buffer.length := by
  have hbefore := before.length_buffer
  rw [← h.width_eq, ← h.height_eq, ← after.length_buffer] at hbefore
  omega

theorem refl (color : UInt32) (canvas : Canvas) : Painted color (fun _ _ => False) canvas canvas :=
  ⟨rfl, rfl, fun _ _ h => h.elim, fun _ _ _ => rfl⟩

/-- Two areas after each other. -/
theorem trans (h : Painted color area before middle) (h' : Painted color area' middle after) :
    Painted color (fun px py => area px py ∨ area' px py) before after where
  width_eq := h'.width_eq.trans h.width_eq
  height_eq := h'.height_eq.trans h.height_eq
  pixel_area px py harea hinside := by
    by_cases harea' : area' px py
    · exact h'.pixel_area px py harea' ((h.inside_iff px py).mpr hinside)
    · rw [h'.pixel_rest px py harea']
      exact h.pixel_area px py (harea.resolve_right harea') hinside
  pixel_rest px py hneither := by
    rw [h'.pixel_rest px py fun h => hneither (.inr h)]
    exact h.pixel_rest px py fun h => hneither (.inl h)

theorem congr (h : Painted color area before after) (harea : ∀ px py, area px py ↔ area' px py) :
    Painted color area' before after := by
  obtain rfl : area = area' := funext fun px => funext fun py => propext (harea px py)
  exact h

end Painted

/-- On a canvas that fits, `draw` stays inside of the buffer and paints an area. -/
def Paints (color : UInt32) (area : Int → Int → Prop) (draw : Canvas → Option Canvas) : Prop :=
  ∀ canvas, canvas.Fits → ∃ after, draw canvas = some after ∧ Painted color area canvas after

variable {color : UInt32}

/-- A loop whose passes paint areas paints all of these. -/
theorem Paints.loop {body : Int32 → Canvas → Option Canvas} {area : Int32 → Int → Int → Prop}
    (h : ∀ i, Paints color (area i) (body i)) (start stop : Int32) :
    Paints color (fun px py => ∃ i, (start ≤ i ∧ i < stop) ∧ area i px py) (IntLoop.run body start stop) := by
  intro canvas hfits
  have hloop : ∃ after, IntLoop.run body start stop canvas = some after ∧ Painted color (fun px py =>
      ∃ i, (start ≤ i ∧ i.toInt < max start.toInt stop.toInt) ∧ area i px py) canvas after := by
    apply IntLoop.run_spec fun bound after =>
      Painted color (fun px py => ∃ i, (start ≤ i ∧ i.toInt < bound) ∧ area i px py) canvas after
    · intro i before hstart _ hbefore
      obtain ⟨next, hnext, hpainted⟩ := h i before (hbefore.fits hfits)
      refine ⟨next, hnext, (hbefore.trans hpainted).congr fun px py => ?_⟩
      constructor
      · rintro (⟨j, ⟨hfirst, hlast⟩, harea⟩ | harea)
        · exact ⟨j, ⟨hfirst, by omega⟩, harea⟩
        · exact ⟨i, ⟨hstart, by omega⟩, harea⟩
      · rintro ⟨j, ⟨hfirst, hlast⟩, harea⟩
        by_cases hsame : j = i
        · exact .inr (hsame ▸ harea)
        · have hne : j.toInt ≠ i.toInt := Int32.toInt_inj.not.mpr hsame
          exact .inl ⟨j, ⟨hfirst, by omega⟩, harea⟩
    · refine (Painted.refl color canvas).congr fun px py => iff_of_false not_false ?_
      rintro ⟨i, ⟨hfirst, hlast⟩, _⟩
      rw [Int32.le_iff_toInt_le] at hfirst
      omega
  obtain ⟨after, hrun, hpainted⟩ := hloop
  refine ⟨after, hrun, hpainted.congr fun px py => ?_⟩
  simp only [Int32.le_iff_toInt_le, Int32.lt_iff_toInt_lt]
  constructor
  · rintro ⟨i, ⟨hfirst, hlast⟩, harea⟩
    exact ⟨i, ⟨hfirst, by omega⟩, harea⟩
  · rintro ⟨i, ⟨hfirst, hlast⟩, harea⟩
    exact ⟨i, ⟨hfirst, by omega⟩, harea⟩

theorem drawPixel_of_inside (hfits : self.Fits) {x y : Int32} (hinside : self.Inside x.toInt y.toInt)
    (color : UInt32) :
    ∃ after, self.drawPixel x y color = some after ∧ after.width = self.width ∧ after.height = self.height ∧
      after.buffer = self.buffer.set (RowMajor.place self.width.toInt x.toInt y.toInt).toNat color := by
  obtain ⟨hnonneg, hlt⟩ := hfits.place_bounds hinside
  have hlength := hfits.length_buffer
  have hpixels := hfits.pixels_lt
  have hindex := toSizeT_index hnonneg (by omega)
  simp only [drawPixel, if_pos ((self.inside_iff x y).mpr hinside), hindex]
  rw [if_pos (by omega)]
  exact ⟨_, rfl, rfl, rfl, rfl⟩

theorem drawPixel_of_outside {x y : Int32} (houtside : ¬ self.Inside x.toInt y.toInt) (color : UInt32) :
    self.drawPixel x y color = some self := by
  rw [drawPixel, if_neg ((self.inside_iff x y).not.mpr houtside)]

theorem drawPixel_paints (x y : Int32) (color : UInt32) :
    Paints color (fun px py => px = x.toInt ∧ py = y.toInt) fun canvas => canvas.drawPixel x y color := by
  intro canvas hfits
  by_cases hinside : canvas.Inside x.toInt y.toInt
  · obtain ⟨after, hafter, hwidth, hheight, hbuffer⟩ := drawPixel_of_inside hfits hinside color
    have hsame (px py : Int) : after.Inside px py ↔ canvas.Inside px py := by
      rw [Inside, Inside, hwidth, hheight]
    obtain ⟨hnonneg, hlt⟩ := hfits.place_bounds hinside
    refine ⟨after, hafter, hwidth, hheight, ?_, ?_⟩
    · rintro _ _ ⟨rfl, rfl⟩ _
      rw [pixel, if_pos ((hsame _ _).mpr hinside), hwidth, hbuffer]
      exact List.getElem?_set_self (by omega)
    · intro px py hother
      simp only [pixel, hsame, hwidth, hbuffer]
      by_cases hpoint : canvas.Inside px py
      · rw [if_pos hpoint, if_pos hpoint]
        apply List.getElem?_set_ne
        intro hplaces
        have hplace := (hfits.place_bounds hpoint).1
        have heq : RowMajor.place canvas.width.toInt x.toInt y.toInt =
            RowMajor.place canvas.width.toInt px py := by omega
        obtain ⟨hx, hy⟩ := RowMajor.place_inj hinside.1.1 hinside.1.2 hpoint.1.1 hpoint.1.2 heq
        exact hother ⟨hx.symm, hy.symm⟩
      · rw [if_neg hpoint, if_neg hpoint]
  · refine ⟨canvas, drawPixel_of_outside hinside color, rfl, rfl, ?_, fun _ _ _ => rfl⟩
    rintro _ _ ⟨rfl, rfl⟩ hpoint
    exact absurd hpoint hinside

/-- The sum of two `int`s does not overflow. -/
def SumFits (a b : Int32) : Prop := -2 ^ 31 ≤ a.toInt + b.toInt ∧ a.toInt + b.toInt < 2 ^ 31

theorem SumFits.toInt_add {a b : Int32} (h : SumFits a b) : (a + b).toInt = a.toInt + b.toInt := by
  obtain ⟨hlow, hhigh⟩ := h
  rw [Int32.toInt_add]
  apply Int.bmod_eq_of_le
  · omega
  · omega

/-- What lies between two `int`s is one. -/
theorem exists_toInt_eq {low high : Int32} {n : Int} (hlow : low.toInt ≤ n) (hhigh : n < high.toInt) :
    ∃ i : Int32, i.toInt = n := by
  have hmin := low.le_toInt
  have hmax := high.toInt_lt
  refine ⟨.ofInt n, ?_⟩
  rw [Int32.toInt_ofInt]
  apply Int.bmod_eq_of_le
  · simp only [Int32.size]
    omega
  · simp only [Int32.size]
    omega

/-- The loops paint what is between their bounds. -/
theorem drawRect_paints (x y w h : Int32) (color : UInt32) :
    Paints color (fun px py => (x.toInt ≤ px ∧ px < (x + w).toInt) ∧ y.toInt ≤ py ∧ py < (y + h).toInt)
      fun canvas => canvas.drawRect x y w h color := by
  have hcolumn (i : Int32) := Paints.loop (fun j => drawPixel_paints i j color) y (y + h)
  intro canvas hfits
  obtain ⟨after, hrun, hpainted⟩ := Paints.loop hcolumn x (x + w) canvas hfits
  refine ⟨after, hrun, hpainted.congr fun px py => ?_⟩
  simp only [Int32.le_iff_toInt_le, Int32.lt_iff_toInt_lt]
  constructor
  · rintro ⟨i, hi, j, hj, rfl, rfl⟩
    exact ⟨hi, hj⟩
  · rintro ⟨hpx, hpy⟩
    obtain ⟨i, rfl⟩ := exists_toInt_eq hpx.1 hpx.2
    obtain ⟨j, rfl⟩ := exists_toInt_eq hpy.1 hpy.2
    exact ⟨i, hpx, j, hpy, rfl, rfl⟩

/-- The point lies in the rectangle. -/
def InRect (x y w h : Int32) (px py : Int) : Prop :=
  (x.toInt ≤ px ∧ px < x.toInt + w.toInt) ∧ y.toInt ≤ py ∧ py < y.toInt + h.toInt

instance (x y w h : Int32) (px py : Int) : Decidable (InRect x y w h px py) :=
  inferInstanceAs (Decidable (_ ∧ _))

/-- A rectangle is clipped: its points that lie in the canvas get the color, the
others of the canvas stay as they are. -/
theorem drawRect_clips (hfits : self.Fits) {x y w h : Int32} (hx : SumFits x w) (hy : SumFits y h)
    (color : UInt32) :
    ∃ after, self.drawRect x y w h color = some after ∧ after.buffer.length = self.buffer.length ∧
      ∀ px py, after.pixel px py =
        if InRect x y w h px py ∧ self.Inside px py then some color else self.pixel px py := by
  obtain ⟨after, hdraw, hpainted⟩ := drawRect_paints x y w h color self hfits
  rw [hx.toInt_add, hy.toInt_add] at hpainted
  refine ⟨after, hdraw, hpainted.length_eq, fun px py => ?_⟩
  by_cases hinside : self.Inside px py
  · by_cases hrect : InRect x y w h px py
    · rw [if_pos ⟨hrect, hinside⟩]
      exact hpainted.pixel_area px py hrect hinside
    · rw [if_neg fun hboth => hrect hboth.1]
      exact hpainted.pixel_rest px py hrect
  · rw [if_neg fun hboth => hinside hboth.2, pixel, pixel, if_neg hinside,
      if_neg ((hpainted.inside_iff px py).not.mpr hinside)]

/-- A canvas of two by two pixels. -/
def small : Canvas := ⟨2, 2, [0, 0, 0, 0], false, by decide⟩

theorem small_fits : small.Fits := ⟨by decide, by decide, by decide⟩

/-- A rectangle that begins on the left of the canvas and ends below it. -/
theorem drawRect_clips_small :
    ∃ after, small.drawRect (-1) 1 2 5 7 = some after ∧ after.buffer.length = small.buffer.length ∧
      ∀ px py, after.pixel px py =
        if InRect (-1) 1 2 5 px py ∧ small.Inside px py then some 7 else small.pixel px py :=
  drawRect_clips small_fits ⟨by decide, by decide⟩ ⟨by decide, by decide⟩ 7

/-- The bit of a character's pixel is set. -/
def HasDot (beyond : Nat → UInt8) (c : UInt8) (dx dy : Int32) : Prop :=
  (getFontBitmap beyond c dy.toInt.toNat).toUInt32.toInt32 &&& (1 <<< (CHAR_WIDTH - 1 - dx)) ≠ 0

/-- A character paints its dots. -/
theorem drawChar_paints (beyond : Nat → UInt8) (x y : Int32) (c : UInt8) (color : UInt32) :
    Paints color (fun px py => ∃ dy, (0 ≤ dy ∧ dy < CHAR_HEIGHT) ∧ ∃ dx, (0 ≤ dx ∧ dx < CHAR_WIDTH) ∧
        HasDot beyond c dx dy ∧ px = (x + dx).toInt ∧ py = (y + dy).toInt)
      fun canvas => canvas.drawChar beyond x y c color := by
  refine Paints.loop (fun dy => Paints.loop (fun dx canvas hfits => ?_) 0 CHAR_WIDTH) 0 CHAR_HEIGHT
  split
  · next hdot =>
    obtain ⟨after, hafter, hpainted⟩ := drawPixel_paints (x + dx) (y + dy) color canvas hfits
    exact ⟨after, hafter, hpainted.congr fun px py => (and_iff_right hdot).symm⟩
  · next hdot =>
    refine ⟨canvas, rfl, (Painted.refl color canvas).congr fun px py => ?_⟩
    exact iff_of_false not_false fun h => hdot h.1

/-- What paints is defined on a canvas that fits, and leaves one that fits. -/
theorem Paints.total {area : Int → Int → Prop} {draw : Canvas → Option Canvas} (h : Paints color area draw)
    {canvas : Canvas} (hfits : canvas.Fits) : ∃ after, draw canvas = some after ∧ after.Fits := by
  obtain ⟨after, hdraw, hpainted⟩ := h canvas hfits
  exact ⟨after, hdraw, hpainted.fits hfits⟩

theorem Fits.drawText (h : self.Fits) (beyond : Nat → UInt8) (x y : Int32) (text : List UInt8) (color : UInt32) :
    ∃ after, self.drawText beyond x y text color = some after ∧ after.Fits := by
  have hnext (drawn : Canvas × Int32) (c : UInt8) (hfits : drawn.1.Fits) :
      ∃ drawn', drawNext beyond y color drawn c = some drawn' ∧ drawn'.1.Fits := by
    obtain ⟨after, hdraw, hafter⟩ := (drawChar_paints beyond drawn.2 y c color).total hfits
    refine ⟨(after, drawn.2 + (CHAR_WIDTH + 1)), ?_, hafter⟩
    rw [drawNext, hdraw, Option.map_some]
  obtain ⟨drawn, hrun, hfits⟩ := run_total (fun drawn => drawn.1.Fits) hnext text (s := (self, x)) h
  refine ⟨drawn.1, ?_, hfits⟩
  rw [Canvas.drawText, hrun, Option.map_some]

/-- On a canvas that fits no call writes past the buffer. -/
theorem Fits.step (h : self.Fits) (beyond : Nat → UInt8) (op : Op) :
    ∃ after, self.step beyond op = some after ∧ after.Fits := by
  cases op with
  | drawPixel x y color => exact (drawPixel_paints x y color).total h
  | drawRect x y w h' color => exact (drawRect_paints x y w h' color).total h
  | drawText x y text color => exact h.drawText beyond x y text color

/-- Where the number of pixels does not fit in `int`, one of them has its place
right behind the buffer. -/
theorem exists_drawPixel_eq_none (hwidth : 0 ≤ self.width.toInt)
    (hlarge : 2 ^ 31 ≤ self.width.toInt * self.height.toInt) (color : UInt32) :
    ∃ x y, self.drawPixel x y color = none := by
  have hsize := self.length_buffer
  have hmax := (self.width * self.height).toInt_lt
  obtain ⟨px, py, hpx, hpxlt, hpy, hpylt, hplace⟩ := RowMajor.exists_place
    (Int.natCast_nonneg self.buffer.length) (show _ < self.width.toInt * self.height.toInt by omega) hwidth
  obtain ⟨x, rfl⟩ := exists_toInt_eq (show (0 : Int32).toInt ≤ px from hpx) hpxlt
  obtain ⟨y, rfl⟩ := exists_toInt_eq (show (0 : Int32).toInt ≤ py from hpy) hpylt
  have hindex : toSizeT (y * self.width + x) = self.buffer.length := by
    rw [toSizeT_index (by omega) (by omega), hplace, Int.toNat_natCast]
  refine ⟨x, y, ?_⟩
  simp only [drawPixel, if_pos ((self.inside_iff x y).mpr ⟨⟨hpx, hpxlt⟩, hpy, hpylt⟩), hindex]
  rw [if_neg (Nat.lt_irrefl _)]

theorem size_new {width height : Int32} {canvas : Canvas} (hnew : Canvas.new width height = some canvas) :
    canvas.width = width ∧ canvas.height = height := by
  unfold Canvas.new at hnew
  split at hnew
  · obtain rfl := Option.some.inj hnew
    exact ⟨rfl, rfl⟩
  · cases hnew

/-- On a canvas that is constructed with a width and a height, no sequence of
calls writes past the buffer exactly where it has less than `2 ^ 31` pixels. -/
theorem inBounds_iff (beyond : Nat → UInt8) {width height : Int32} {canvas : Canvas} (hwidth : 0 ≤ width)
    (hheight : 0 ≤ height) (hnew : Canvas.new width height = some canvas) :
    (∀ ops, (run (step beyond) canvas ops).isSome) ↔ width.toInt * height.toInt < 2 ^ 31 := by
  have hzero : (0 : Int32).toInt = 0 := rfl
  rw [Int32.le_iff_toInt_le, hzero] at hwidth hheight
  obtain ⟨rfl, rfl⟩ := size_new hnew
  constructor
  · intro hdefined
    by_contra hlarge
    obtain ⟨x, y, hnone⟩ := exists_drawPixel_eq_none hwidth (Int.not_lt.mp hlarge) 0
    have hsome := hdefined [.drawPixel x y 0]
    rw [run_cons, step, hnone] at hsome
    cases hsome
  · intro hlt ops
    obtain ⟨after, hrun, _⟩ := run_total Fits (fun _ op h => h.step beyond op) ops ⟨hwidth, hheight, hlt⟩
    rw [hrun]
    rfl

theorem inBounds_iff_small :
    (∀ ops, (run (step fun _ => 0) small ops).isSome) ↔ (2 : Int32).toInt * (2 : Int32).toInt < 2 ^ 31 :=
  inBounds_iff (fun _ => 0) (by decide) (by decide) rfl

/-- A canvas whose number of pixels is 0 in `int`. -/
theorem wrapped_canvas_overrun :
    ∃ canvas, Canvas.new 65536 65536 = some canvas ∧
      ¬ (run (step fun _ => 0) canvas [.drawPixel 0 0 7]).isSome := by
  refine ⟨⟨65536, 65536, [], false, rfl⟩, rfl, ?_⟩
  decide

end Canvas

end UI
