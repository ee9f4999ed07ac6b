import KernelcModerne.Lib.Word64
import KernelcModerne.Ui.Painting

open Transition

namespace UI

structure TabControl.Tab (ω : Type*) where
  title : List UInt8
  widgets : List ω
  active : Bool

structure TabControl (ω : Type*) where
  tabs : List (TabControl.Tab ω)
  activeTab : Int32
  backgroundColor : UInt32
  textColor : UInt32
  activeColor : UInt32

namespace TabControl

open Canvas

variable {ω : Type*}

/-- The constructor leaves the colors as it finds them in memory. -/
def constructed (backgroundColor textColor activeColor : UInt32) : TabControl ω where
  tabs := []
  activeTab := 0
  backgroundColor
  textColor
  activeColor

def addTab (self : TabControl ω) (title : List UInt8) : TabControl ω :=
  { self with tabs := self.tabs ++ [⟨title, [], self.tabs.isEmpty⟩] }

/-- The test of an index that `addWidgetToTab` and `setActiveTab` share. -/
def hasTab (self : TabControl ω) (index : Int32) : Bool :=
  index ≥ 0 && toSizeT index < self.tabs.length

def addWidgetToTab (self : TabControl ω) (tabIndex : Int32) (widget : ω) : TabControl ω :=
  if self.hasTab tabIndex then
    { self with
      tabs := self.tabs.modify (toSizeT tabIndex) fun tab => { tab with widgets := tab.widgets ++ [widget] } }
  else self

/-- `tabs[index].active = active`, which is undefined where there is no such tab. -/
def setActive (self : TabControl ω) (index : Int32) (active : Bool) : Option (TabControl ω) :=
  if toSizeT index < self.tabs.length then
    some { self with tabs := self.tabs.modify (toSizeT index) fun tab => { tab with active } }
  else none

def setActiveTab (self : TabControl ω) (index : Int32) : Option (TabControl ω) :=
  if self.hasTab index then do
    let self ← self.setActive self.activeTab false
    { self with activeTab := index }.setActive index true
  else some self

inductive Op (ω : Type*) where
  | addTab (title : List UInt8)
  | addWidgetToTab (tabIndex : Int32) (widget : ω)
  | setActiveTab (index : Int32)

def step (self : TabControl ω) : Op ω → Option (TabControl ω)
  | .addTab title => some (self.addTab title)
  | .addWidgetToTab tabIndex widget => some (self.addWidgetToTab tabIndex widget)
  | .setActiveTab index => self.setActiveTab index

def tabHeight : Int32 := 30

/-- `width / tabs.size()`, a `size_t` before it is the `int` that it initializes. -/
def tabWidth (self : TabControl ω) (bounds : WidgetBounds) : Int32 :=
  .ofNat (toSizeT bounds.width / self.tabs.length)

/-- `tabX + (tabWidth - title.length() * 8) / 2`, a `size_t` as well. -/
def titleX (tabX tabWidth : Int32) (title : List UInt8) : Int32 :=
  .ofNat (Word64.add (toSizeT tabX) (Word64.sub (toSizeT tabWidth) (Word64.mul title.length 8) / 2))

/-- What `render` calls to draw a header. -/
def headerCalls (self : TabControl ω) (y tabWidth tabX : Int32) (i : Nat) (tab : Tab ω) : List Canvas.Op :=
  let tabColor := if i = toSizeT self.activeTab then self.activeColor else self.backgroundColor
  let textY := y + (tabHeight - 8) / 2
  [.drawRect tabX y tabWidth tabHeight tabColor,
    .drawRect tabX y tabWidth 1 self.textColor,
    .drawRect tabX y 1 tabHeight self.textColor,
    .drawRect (tabX + tabWidth - 1) y 1 tabHeight self.textColor,
    .drawText (titleX tabX tabWidth tab.title) textY tab.title self.textColor]

/-- The loop over the tabs. -/
def headersFrom (self : TabControl ω) (y tabWidth tabX : Int32) (i : Nat) : List (Tab ω) → List Canvas.Op
  | [] => []
  | tab :: tabs =>
    self.headerCalls y tabWidth tabX i tab ++ self.headersFrom y tabWidth (tabX + tabWidth) (i + 1) tabs

/-- The calls of the widgets in the active tab. -/
def widgetCalls (self : TabControl ω) (draws : ω → List Canvas.Op) : List Canvas.Op :=
  self.tabs[toSizeT self.activeTab]?.elim [] fun tab => tab.widgets.flatMap draws

/-- What it calls for the content area. -/
def contentCalls (self : TabControl ω) (draws : ω → List Canvas.Op) (bounds : WidgetBounds) : List Canvas.Op :=
  if self.hasTab self.activeTab then
    .drawRect bounds.x (bounds.y + tabHeight) bounds.width (bounds.height - tabHeight) self.backgroundColor ::
      self.widgetCalls draws
  else []

/-- It reads nothing from the canvas, so that it is the list of its calls. `draws`
are those that the widgets make. Without a tab it divides by zero. -/
def render (beyond : Nat → UInt8) (self : TabControl ω) (draws : ω → List Canvas.Op) (bounds : WidgetBounds)
    (canvas : Canvas) : Option Canvas :=
  if self.tabs.length = 0 then none
  else run (Canvas.step beyond) canvas
    (.drawRect bounds.x bounds.y bounds.width bounds.height self.backgroundColor ::
      (self.headersFrom bounds.y (self.tabWidth bounds) bounds.x 0 self.tabs ++ self.contentCalls draws bounds))

/-- The tab at `activeTab`, once there is one, is the only one that is marked. -/
structure Marked (control : TabControl ω) : Prop where
  index_nonneg : 0 ≤ control.activeTab.toInt
  index_lt : control.activeTab.toInt < max 1 control.tabs.length
  active_iff : ∀ (i : Nat) tab, control.tabs[i]? = some tab →
    (tab.active = true ↔ (i : Int) = control.activeTab.toInt)

variable {self next : TabControl ω}

theorem toSizeT_of_nonneg {n : Int32} (h : 0 ≤ n.toInt) : (toSizeT n : Int) = n.toInt := by
  have hlt := n.toInt_lt
  rw [toSizeT, Int.emod_eq_of_lt h (by omega), Int.toNat_of_nonneg h]

theorem hasTab_iff {index : Int32} :
    self.hasTab index = true ↔ 0 ≤ index.toInt ∧ index.toInt < self.tabs.length := by
  rw [hasTab, Bool.and_eq_true, decide_eq_true_iff, decide_eq_true_iff, ge_iff_le, Int32.le_iff_toInt_le,
    show (0 : Int32).toInt = 0 from rfl]
  constructor
  · rintro ⟨hnonneg, hlt⟩
    have hindex := toSizeT_of_nonneg hnonneg
    exact ⟨hnonneg, by omega⟩
  · rintro ⟨hnonneg, hlt⟩
    have hindex := toSizeT_of_nonneg hnonneg
    exact ⟨hnonneg, by omega⟩

theorem constructed_marked (backgroundColor textColor activeColor : UInt32) :
    (constructed backgroundColor textColor activeColor : TabControl ω).Marked :=
  ⟨Int.le_refl 0, Int.one_pos, fun _ _ htab => by cases htab⟩

theorem Marked.addTab (h : self.Marked) (title : List UInt8) : (self.addTab title).Marked := by
  have hlt := h.index_lt
  refine ⟨h.index_nonneg, ?_, fun i tab htab => ?_⟩
  · simp only [TabControl.addTab, List.length_append, List.length_singleton]
    omega
  · simp only [TabControl.addTab] at htab ⊢
    rw [List.getElem?_append] at htab
    split at htab
    · exact h.active_iff i tab htab
    · next hbeyond =>
      rw [List.getElem?_singleton] at htab
      split at htab
      · next hlast =>
        obtain rfl := Option.some.inj htab
        have hnonneg := h.index_nonneg
        rw [List.isEmpty_iff_length_eq_zero]
        omega
      · cases htab

theorem Marked.addWidgetToTab (h : self.Marked) (tabIndex : Int32) (widget : ω) :
    (self.addWidgetToTab tabIndex widget).Marked := by
  rw [TabControl.addWidgetToTab]
  split
  · refine ⟨h.index_nonneg, ?_, fun i tab htab => ?_⟩
    · rw [List.length_modify]
      exact h.index_lt
    · rw [List.getElem?_modify, Option.map_eq_map, Option.map_eq_some_iff] at htab
      obtain ⟨before, hbefore, rfl⟩ := htab
      rw [← h.active_iff i before hbefore]
      split <;> rfl
  · exact h

theorem Marked.setActiveTab (h : self.Marked) (index : Int32) :
    ∃ next, self.setActiveTab index = some next ∧ next.Marked := by
  rw [TabControl.setActiveTab]
  split
  · next hindex =>
    obtain ⟨hnonneg, hlt⟩ := hasTab_iff.mp hindex
    have hactive := toSizeT_of_nonneg h.index_nonneg
    have hsize := toSizeT_of_nonneg hnonneg
    have hbound := h.index_lt
    have hold : toSizeT self.activeTab < self.tabs.length := by omega
    have hnew : toSizeT index < self.tabs.length := by omega
    simp only [setActive, if_pos hold, List.length_modify, if_pos hnew, Option.bind_eq_bind, Option.bind_some]
    refine ⟨_, rfl, hnonneg, ?_, fun i tab htab => ?_⟩
    · simp only [List.length_modify]
      omega
    · simp only [List.getElem?_modify, Option.map_eq_map, Option.map_map, Option.map_eq_some_iff] at htab
      obtain ⟨before, hbefore, rfl⟩ := htab
      have hmark := h.active_iff i before hbefore
      simp only [Function.comp_apply]
      split
      · simp only [true_iff]
        omega
      · split
        · simp only [Bool.false_eq_true, false_iff]
          omega
        · rw [hmark]
          omega
  · exact ⟨self, rfl, h⟩

theorem Marked.step (h : self.Marked) (op : Op ω) : ∃ next, self.step op = some next ∧ next.Marked := by
  cases op with
  | addTab title => exact ⟨_, rfl, h.addTab title⟩
  | addWidgetToTab tabIndex widget => exact ⟨_, rfl, h.addWidgetToTab tabIndex widget⟩
  | setActiveTab index => exact h.setActiveTab index

/-- The bounds of a widget on which no sum of `render` overflows. -/
structure Roomy (bounds : WidgetBounds) : Prop where
  width_nonneg : 0 ≤ bounds.width.toInt
  height_nonneg : 0 ≤ bounds.height.toInt
  right_lt : bounds.x.toInt + bounds.width.toInt < 2 ^ 31
  header_lt : bounds.y.toInt + 30 < 2 ^ 31
  bottom_lt : bounds.y.toInt + bounds.height.toInt < 2 ^ 31

/-- The columns that each tab has for its header. -/
def headerWidth (self : TabControl ω) (bounds : WidgetBounds) : Int :=
  bounds.width.toInt / self.tabs.length

/-- The point lies in the header of the tab with the index. -/
def InHeader (self : TabControl ω) (bounds : WidgetBounds) (k : Nat) (px py : Int) : Prop :=
  (bounds.x.toInt + self.headerWidth bounds * k ≤ px ∧ px < bounds.x.toInt + self.headerWidth bounds * (k + 1)) ∧
    bounds.y.toInt ≤ py ∧ py < bounds.y.toInt + 30

def headerX (self : TabControl ω) (bounds : WidgetBounds) (k : Nat) : Int32 :=
  bounds.x + self.tabWidth bounds * Int32.ofNat k

/-- The calls for the header of the tab with the index. -/
def header (self : TabControl ω) (bounds : WidgetBounds) (tab : Tab ω) (k : Nat) : List Canvas.Op :=
  self.headerCalls bounds.y (self.tabWidth bounds) (self.headerX bounds k) k tab

/-- The calls for the headers of tabs that follow each other. -/
def headers (self : TabControl ω) (bounds : WidgetBounds) (k : Nat) (tabs : List (Tab ω)) : List Canvas.Op :=
  (tabs.zipIdx k).flatMap fun (tab, i) => self.header bounds tab i

variable {bounds : WidgetBounds} {k : Nat} {tab : Tab ω} {tabs : List (Tab ω)} {px py : Int}

theorem headersFrom_eq :
    self.headersFrom bounds.y (self.tabWidth bounds) (self.headerX bounds k) k tabs =
      self.headers bounds k tabs := by
  induction tabs generalizing k with
  | nil => rfl
  | cons tab tabs ih =>
    have hnext : self.headerX bounds k + self.tabWidth bounds = self.headerX bounds (k + 1) := by
      rw [headerX, headerX, Int32.ofNat_add, Int32.mul_add, Int32.add_assoc]
      exact congrArg _ (congrArg _ (Int32.mul_one _).symm)
    simp only [headersFrom, hnext, ih, headers, header, List.zipIdx_cons, List.flatMap_cons]

theorem toInt_tabWidth (self : TabControl ω) (hbounds : Roomy bounds) :
    (self.tabWidth bounds).toInt = self.headerWidth bounds := by
  have hwidth := toSizeT_of_nonneg hbounds.width_nonneg
  have hlt := bounds.width.toInt_lt
  have hle : bounds.width.toInt / self.tabs.length ≤ bounds.width.toInt :=
    Int.ediv_le_self _ hbounds.width_nonneg
  have hnonneg : 0 ≤ bounds.width.toInt / self.tabs.length :=
    Int.ediv_nonneg hbounds.width_nonneg (Int.natCast_nonneg _)
  rw [tabWidth, Int32.toInt_ofNat', Int.natCast_ediv, hwidth, headerWidth]
  apply Int.bmod_eq_of_le
  · simp only [Int32.size]
    omega
  · simp only [Int32.size]
    omega

/-- The headers lie side by side within the bounds. -/
theorem headerWidth_mul_le (self : TabControl ω) (hbounds : Roomy bounds) (hk : k ≤ self.tabs.length) :
    0 ≤ self.headerWidth bounds * k ∧ self.headerWidth bounds * k ≤ bounds.width.toInt := by
  have hnonneg : 0 ≤ self.headerWidth bounds :=
    Int.ediv_nonneg hbounds.width_nonneg (Int.natCast_nonneg _)
  have hle : (k : Int) ≤ self.tabs.length := Int.ofNat_le.mpr hk
  refine ⟨Int.mul_nonneg hnonneg (Int.natCast_nonneg k), ?_⟩
  by_cases hnone : (self.tabs.length : Int) = 0
  · obtain rfl : k = 0 := by omega
    rw [Int.natCast_zero, Int.mul_zero]
    exact hbounds.width_nonneg
  · calc self.headerWidth bounds * k
        ≤ self.headerWidth bounds * self.tabs.length := Int.mul_le_mul_of_nonneg_left hle hnonneg
      _ ≤ bounds.width.toInt := Int.ediv_mul_le _ hnone

theorem toInt_headerX (self : TabControl ω) (hbounds : Roomy bounds) (hk : k ≤ self.tabs.length) :
    (self.headerX bounds k).toInt = bounds.x.toInt + self.headerWidth bounds * k := by
  have hlow := bounds.x.le_toInt
  have hright := hbounds.right_lt
  obtain ⟨hnonneg, hle⟩ := headerWidth_mul_le self hbounds hk
  rw [headerX, Int32.toInt_add, Int32.toInt_mul, Int.add_bmod_bmod, Int32.toInt_ofNat', Int32.size,
    ← Int.add_bmod_bmod, Int.mul_bmod_bmod, Int.add_bmod_bmod, toInt_tabWidth self hbounds]
  apply Int.bmod_eq_of_le
  · omega
  · omega

/-- What a `size_t` is in `int` depends on its last 32 bits. -/
theorem bmod_emod (n : Int) : (n % 2 ^ 64).bmod (2 ^ 32) = n.bmod (2 ^ 32) := by
  rw [← Int.emod_bmod, Int.emod_emod_of_dvd n (by decide), Int.emod_bmod]

/-- A title that is not longer than its tab begins in it. -/
theorem toInt_titleX {tabX width : Int32} {title : List UInt8} (hroom : 8 * (title.length : Int) ≤ width.toInt)
    (hright : tabX.toInt + width.toInt < 2 ^ 31) :
    (titleX tabX width title).toInt = tabX.toInt + (width.toInt - 8 * title.length) / 2 := by
  have hlow := tabX.le_toInt
  have hlt := width.toInt_lt
  have hwidth := toSizeT_of_nonneg (n := width) (by omega)
  have hmul : Word64.mul title.length 8 = title.length * 8 := Word64.mul_eq_of_lt (by omega)
  have hsub : Word64.sub (toSizeT width) (title.length * 8) = toSizeT width - title.length * 8 :=
    Word64.sub_eq_of_le (by omega) (by omega)
  have hhalf : (((toSizeT width - title.length * 8) / 2 : Nat) : Int) = (width.toInt - 8 * title.length) / 2 := by
    omega
  have htab : (toSizeT tabX : Int) = tabX.toInt % 2 ^ 64 :=
    Int.toNat_of_nonneg (Int.emod_nonneg _ (by decide))
  have hsum : ((Word64.add (toSizeT tabX) ((toSizeT width - title.length * 8) / 2) : Nat) : Int) =
      (tabX.toInt + (width.toInt - 8 * title.length) / 2) % 2 ^ 64 := by
    rw [Word64.add, Int.natCast_emod, Int.natCast_add, hhalf, htab]
    exact Int.emod_add_emod _ _ _
  rw [titleX, hmul, hsub, Int32.toInt_ofNat', hsum, Int32.size]
  refine (bmod_emod _).trans ?_
  apply Int.bmod_eq_of_le
  · omega
  · omega

/-- The sums that the calls for a header make. -/
structure HeaderSums (self : TabControl ω) (bounds : WidgetBounds) (k : Nat) : Prop where
  left_eq : (self.headerX bounds k).toInt = bounds.x.toInt + self.headerWidth bounds * k
  next_eq : (self.headerX bounds k + self.tabWidth bounds).toInt = bounds.x.toInt + self.headerWidth bounds * (k + 1)
  second_eq : (self.headerX bounds k + 1).toInt = bounds.x.toInt + self.headerWidth bounds * k + 1
  last_eq : (self.headerX bounds k + self.tabWidth bounds - 1).toInt =
    bounds.x.toInt + self.headerWidth bounds * (k + 1) - 1
  next_lt : bounds.x.toInt + self.headerWidth bounds * (k + 1) < 2 ^ 31
  step_eq : self.headerWidth bounds * (k + 1) = self.headerWidth bounds * k + self.headerWidth bounds

theorem headerSums (self : TabControl ω) (hbounds : Roomy bounds) (hk : k < self.tabs.length)
    (hwidth : 1 ≤ self.headerWidth bounds) : self.HeaderSums bounds k := by
  have hlow := bounds.x.le_toInt
  have hright := hbounds.right_lt
  have hone : (1 : Int32).toInt = 1 := rfl
  have hleft := toInt_headerX self hbounds (Nat.le_of_lt hk)
  have htab := toInt_tabWidth self hbounds
  obtain ⟨hnonneg, -⟩ := headerWidth_mul_le self hbounds (Nat.le_of_lt hk)
  obtain ⟨-, hle⟩ := headerWidth_mul_le self hbounds (Nat.succ_le_of_lt hk)
  have hstep : self.headerWidth bounds * (k + 1) = self.headerWidth bounds * k + self.headerWidth bounds := by
    rw [Int.mul_add, Int.mul_one]
  rw [Nat.succ_eq_add_one, Int.natCast_add, Int.natCast_one, hstep] at hle
  have hnext : (self.headerX bounds k + self.tabWidth bounds).toInt =
      bounds.x.toInt + self.headerWidth bounds * (k + 1) := by
    rw [SumFits.toInt_add ⟨by omega, by omega⟩]
    omega
  refine ⟨hleft, hnext, ?_, ?_, by omega, hstep⟩
  · rw [SumFits.toInt_add ⟨by omega, by omega⟩]
    omega
  · rw [Int32.toInt_sub, hnext, hone, Int.bmod_eq_of_le (by omega) (by omega)]

/-- A header that has a point has a column. -/
theorem InHeader.one_le (h : self.InHeader bounds k px py) : 1 ≤ self.headerWidth bounds := by
  obtain ⟨⟨hfirst, hlast⟩, -⟩ := h
  rw [Int.mul_add] at hlast
  omega

/-- The calls for a header, after the one for its background. -/
def lines (self : TabControl ω) (bounds : WidgetBounds) (tab : Tab ω) (k : Nat) : List Canvas.Op :=
  (self.header bounds tab k).tail

/-- The point lies on the border of the header or on a dot of the title. -/
def Lettered (beyond : Nat → UInt8) (self : TabControl ω) (bounds : WidgetBounds) (tab : Tab ω) (k : Nat)
    (px py : Int) : Prop :=
  py = bounds.y.toInt ∨ px = bounds.x.toInt + self.headerWidth bounds * k ∨
    px = bounds.x.toInt + self.headerWidth bounds * (k + 1) - 1 ∨
    textArea beyond (bounds.y + 11) (titleX (self.headerX bounds k) (self.tabWidth bounds) tab.title) tab.title px py

variable {beyond : Nat → UInt8}

theorem lines_color : ∀ op ∈ self.lines bounds tab k, op.color = self.textColor := by
  intro op hop
  simp only [lines, header, headerCalls, List.tail_cons, List.mem_cons, List.not_mem_nil, or_false] at hop
  obtain rfl | rfl | rfl | rfl := hop <;> rfl

theorem toInt_header_bottom (hbounds : Roomy bounds) : (bounds.y + tabHeight).toInt = bounds.y.toInt + 30 := by
  have hlow := bounds.y.le_toInt
  have hlt := hbounds.header_lt
  have hheight : tabHeight.toInt = 30 := rfl
  rw [SumFits.toInt_add ⟨by omega, by omega⟩, hheight]

theorem toInt_second_row (hbounds : Roomy bounds) : (bounds.y + 1).toInt = bounds.y.toInt + 1 := by
  have hlow := bounds.y.le_toInt
  have hlt := hbounds.header_lt
  have hone : (1 : Int32).toInt = 1 := rfl
  rw [SumFits.toInt_add ⟨by omega, by omega⟩, hone]

/-- In the header they draw what is to be seen there. -/
theorem lines_area_iff (hbounds : Roomy bounds) (hk : k < self.tabs.length)
    (hpoint : self.InHeader bounds k px py) :
    (∃ op ∈ self.lines bounds tab k, op.area beyond px py) ↔ self.Lettered beyond bounds tab k px py := by
  obtain ⟨hleft, hnext, hsecond, hend, hlt, hstep⟩ := headerSums self hbounds hk hpoint.one_le
  obtain ⟨⟨hfirst, hlast⟩, htop, hbottom⟩ := hpoint
  have hrow := toInt_second_row hbounds
  have hcolumns := toInt_header_bottom hbounds
  have htext : bounds.y + (tabHeight - 8) / 2 = bounds.y + 11 := rfl
  have hsame : self.headerX bounds k + self.tabWidth bounds - 1 + 1 =
      self.headerX bounds k + self.tabWidth bounds := Int32.sub_add_cancel _ _
  simp only [lines, header, headerCalls, List.tail_cons, List.exists_mem_cons_iff, List.not_mem_nil, false_and,
    exists_false, or_false, Op.area, hleft, hnext, hsecond, hend, hsame, hrow, hcolumns, htext, Lettered]
  refine or_congr ?_ (or_congr ?_ (or_congr ?_ Iff.rfl))
  · omega
  · omega
  · omega

/-- The calls for a header stay in it if its title is not too long. -/
theorem header_area (hbounds : Roomy bounds) (hk : k < self.tabs.length) (hwidth : 1 ≤ self.headerWidth bounds)
    (htitle : 8 * (tab.title.length : Int) ≤ self.headerWidth bounds) {op : Canvas.Op}
    (hop : op ∈ self.header bounds tab k) (harea : op.area beyond px py) : self.InHeader bounds k px py := by
  obtain ⟨hleft, hnext, hsecond, hend, hlt, hstep⟩ := headerSums self hbounds hk hwidth
  have hlow := bounds.y.le_toInt
  have hheader := hbounds.header_lt
  have heleven : (11 : Int32).toInt = 11 := rfl
  have hrow := toInt_second_row hbounds
  have hcolumns := toInt_header_bottom hbounds
  have htext : bounds.y + (tabHeight - 8) / 2 = bounds.y + 11 := rfl
  have htexty : (bounds.y + 11).toInt = bounds.y.toInt + 11 := SumFits.toInt_add ⟨by omega, by omega⟩
  have hsame : self.headerX bounds k + self.tabWidth bounds - 1 + 1 =
      self.headerX bounds k + self.tabWidth bounds := Int32.sub_add_cancel _ _
  have htab := toInt_tabWidth self hbounds
  simp only [header, headerCalls, List.mem_cons, List.not_mem_nil, or_false] at hop
  rw [InHeader]
  obtain rfl | rfl | rfl | rfl | rfl := hop
  · simp only [Op.area, hleft, hnext, hcolumns] at harea
    omega
  · simp only [Op.area, hleft, hnext, hrow] at harea
    omega
  · simp only [Op.area, hleft, hsecond, hcolumns] at harea
    omega
  · simp only [Op.area, hend, hsame, hnext, hcolumns] at harea
    omega
  · have hx := toInt_titleX (htab ▸ htitle) (show (self.headerX bounds k).toInt + _ < 2 ^ 31 by omega)
    rw [Op.area, htext] at harea
    obtain ⟨habove, hbelow⟩ := textArea_bounds harea (by omega)
    obtain ⟨hfirst, hlast⟩ := textArea_columns harea (by omega)
    omega

/-- The header is drawn over what was there. -/
theorem run_header (hbounds : Roomy bounds) (hk : k < self.tabs.length) (hpoint : self.InHeader bounds k px py)
    {before after : Canvas} (hfits : before.Fits) (hinside : before.Inside px py)
    (hrun : run (Canvas.step beyond) before (self.header bounds tab k) = some after) :
    (self.Lettered beyond bounds tab k px py → after.pixel px py = some self.textColor) ∧
      (¬ self.Lettered beyond bounds tab k px py → after.pixel px py =
        some (if k = toSizeT self.activeTab then self.activeColor else self.backgroundColor)) := by
  obtain ⟨hleft, hnext, -, -, -, -⟩ := headerSums self hbounds hk hpoint.one_le
  have hsplit : self.header bounds tab k =
      .drawRect (self.headerX bounds k) bounds.y (self.tabWidth bounds) tabHeight
        (if k = toSizeT self.activeTab then self.activeColor else self.backgroundColor) ::
        self.lines bounds tab k := rfl
  rw [hsplit, run_cons] at hrun
  obtain ⟨filled, hfill, hpainted⟩ := drawRect_paints (self.headerX bounds k) bounds.y (self.tabWidth bounds)
    tabHeight (if k = toSizeT self.activeTab then self.activeColor else self.backgroundColor) before hfits
  have hlines : Paints self.textColor (fun px py => ∃ op ∈ self.lines bounds tab k, op.area beyond px py)
      fun canvas => run (Canvas.step beyond) canvas (self.lines bounds tab k) := run_paints lines_color
  obtain ⟨after', hafter, hlettered⟩ := hlines filled (hpainted.fits hfits)
  obtain rfl : after' = after := by
    rw [Canvas.step, show before.drawRect _ _ _ _ _ = some filled from hfill, Option.bind_some] at hrun
    exact Option.some.inj (hafter.symm.trans hrun)
  rw [← lines_area_iff hbounds hk hpoint]
  constructor
  · intro hdrawn
    exact hlettered.pixel_area px py hdrawn ((hpainted.inside_iff px py).mpr hinside)
  · intro hplain
    rw [hlettered.pixel_rest px py hplain]
    apply hpainted.pixel_area px py _ hinside
    rw [hleft, hnext, toInt_header_bottom hbounds]
    exact hpoint

/-- The point is one that a widget of the marked tab paints. -/
def WidgetPaints (beyond : Nat → UInt8) (self : TabControl ω) (draws : ω → List Canvas.Op) (px py : Int) : Prop :=
  ∃ tab ∈ self.tabs, tab.active = true ∧ ∃ widget ∈ tab.widgets, ∃ op ∈ draws widget, op.area beyond px py

/-- No title after the tab with the index is longer than the tab that it is in. -/
def ShortAfter (self : TabControl ω) (bounds : WidgetBounds) (k : Nat) : Prop :=
  ∀ j later, k < j → self.tabs[j]? = some later → 8 * (later.title.length : Int) ≤ self.headerWidth bounds

variable {draws : ω → List Canvas.Op} {op : Canvas.Op}

theorem Marked.widgetCalls_paint (h : self.Marked) (hop : op ∈ self.widgetCalls draws)
    (harea : op.area beyond px py) : self.WidgetPaints beyond draws px py := by
  cases hshown : self.tabs[toSizeT self.activeTab]? with
  | none =>
    rw [widgetCalls, hshown] at hop
    cases hop
  | some tab =>
    rw [widgetCalls, hshown, Option.elim_some, List.mem_flatMap] at hop
    obtain ⟨widget, hmem, hdraws⟩ := hop
    have hactive := (h.active_iff _ tab hshown).mpr (toSizeT_of_nonneg h.index_nonneg)
    exact ⟨tab, List.mem_of_getElem? hshown, hactive, widget, hmem, op, hdraws, harea⟩

/-- Below the headers there are only the background and the widgets. -/
theorem Marked.contentCalls_area (h : self.Marked) (hbounds : Roomy bounds)
    (hop : op ∈ self.contentCalls draws bounds) (harea : op.area beyond px py) :
    bounds.y.toInt + 30 ≤ py ∨ self.WidgetPaints beyond draws px py := by
  rw [contentCalls] at hop
  split at hop
  · obtain rfl | hwidget := List.mem_cons.mp hop
    · obtain ⟨-, htop, -⟩ := harea
      rw [toInt_header_bottom hbounds] at htop
      exact .inl htop
    · exact .inr (h.widgetCalls_paint hwidget harea)
  · cases hop

/-- The headers of the later tabs leave the ones before them. -/
theorem headers_area (hbounds : Roomy bounds) (hwidth : 1 ≤ self.headerWidth bounds)
    (hshort : self.ShortAfter bounds k) (hop : op ∈ self.headers bounds (k + 1) (self.tabs.drop (k + 1)))
    (harea : op.area beyond px py) : bounds.x.toInt + self.headerWidth bounds * (k + 1) ≤ px := by
  rw [headers, List.mem_flatMap] at hop
  obtain ⟨⟨later, j⟩, hlater, hop⟩ := hop
  obtain ⟨hfirst, hlast, heq⟩ := List.mem_zipIdx hlater
  have hget : self.tabs[j]? = some later := by
    rw [heq, ← List.getElem?_eq_getElem, List.getElem?_drop, Nat.add_sub_cancel' hfirst]
  have htitle := hshort j later hfirst hget
  rw [List.length_drop] at hlast
  obtain ⟨⟨hin, -⟩, -⟩ := header_area hbounds (by omega) hwidth htitle hop harea
  have hle : self.headerWidth bounds * (k + 1 : Nat) ≤ self.headerWidth bounds * j :=
    Int.mul_le_mul_of_nonneg_left (Int.ofNat_le.mpr hfirst) (by omega)
  rw [Int.natCast_add, Int.natCast_one] at hle
  omega

/-- What is to be seen on the canvas, where no widget paints: the border and the
title of each tab, behind them the color that tells whether it is the active one,
and the background of the content. -/
structure Shows (beyond : Nat → UInt8) (control : TabControl ω) (draws : ω → List Canvas.Op) (bounds : WidgetBounds)
    (before after : Canvas) : Prop where
  lettered : ∀ k tab px py, control.tabs[k]? = some tab → control.ShortAfter bounds k →
    control.InHeader bounds k px py → before.Inside px py → ¬ control.WidgetPaints beyond draws px py →
    control.Lettered beyond bounds tab k px py → after.pixel px py = some control.textColor
  plain : ∀ k tab px py, control.tabs[k]? = some tab → control.ShortAfter bounds k →
    control.InHeader bounds k px py → before.Inside px py → ¬ control.WidgetPaints beyond draws px py →
    ¬ control.Lettered beyond bounds tab k px py →
    after.pixel px py = some (if tab.active then control.activeColor else control.backgroundColor)
  content : ∀ px py, bounds.x.toInt ≤ px → px < bounds.x.toInt + bounds.width.toInt → bounds.y.toInt + 30 ≤ py →
    py < bounds.y.toInt + bounds.height.toInt → before.Inside px py → ¬ control.WidgetPaints beyond draws px py →
    after.pixel px py = some control.backgroundColor

/-- The header of a tab looks as its own calls leave it. -/
theorem Marked.header_shown (h : self.Marked) (hbounds : Roomy bounds) {canvas after : Canvas}
    (hfits : canvas.Fits) (hafter : self.render beyond draws bounds canvas = some after)
    (htab : self.tabs[k]? = some tab) (hshort : self.ShortAfter bounds k) (hpoint : self.InHeader bounds k px py)
    (hinside : canvas.Inside px py) (hfree : ¬ self.WidgetPaints beyond draws px py) :
    (self.Lettered beyond bounds tab k px py → after.pixel px py = some self.textColor) ∧
      (¬ self.Lettered beyond bounds tab k px py →
        after.pixel px py = some (if tab.active then self.activeColor else self.backgroundColor)) := by
  obtain ⟨hk, hget⟩ := List.getElem?_eq_some_iff.mp htab
  have hpointwise := pointwise_step beyond canvas.width canvas.height
  have hsplit : self.tabs = self.tabs.take k ++ tab :: self.tabs.drop (k + 1) := by
    rw [← hget, ← List.drop_eq_getElem_cons hk, List.take_append_drop]
  have hheaders : self.headers bounds 0 self.tabs = self.headers bounds 0 (self.tabs.take k) ++
      (self.header bounds tab k ++ self.headers bounds (k + 1) (self.tabs.drop (k + 1))) := by
    have hlength : (self.tabs.take k).length = k := List.length_take_of_le (Nat.le_of_lt hk)
    conv_lhs => rw [hsplit]
    rw [headers, List.zipIdx_append, List.flatMap_append, hlength, Nat.zero_add, List.zipIdx_cons,
      List.flatMap_cons]
    rfl
  have hzero : self.headerX bounds 0 = bounds.x := by
    rw [headerX]
    exact (congrArg _ Int32.mul_zero).trans (Int32.add_zero _)
  rw [render, if_neg (by omega), ← hzero, headersFrom_eq, hheaders, hzero] at hafter
  rw [← List.cons_append, ← List.cons_append, List.append_assoc, List.append_assoc] at hafter
  rw [run_append, Option.bind_eq_some_iff] at hafter
  obtain ⟨first, hfirst, hafter⟩ := hafter
  rw [run_append, Option.bind_eq_some_iff] at hafter
  obtain ⟨second, hsecond, hlast⟩ := hafter
  have hsized := hpointwise.run_preserves hfits.sized hfirst
  have hinside' : first.Inside px py := hsized.inside_iff.mpr hinside
  have hframe : after.pixel px py = second.pixel px py := by
    apply hpointwise.run_frame (i := (px, py)) (hpointwise.run_preserves hsized hsecond) hlast
    intro op hop harea
    obtain hlater | hcontent := List.mem_append.mp hop
    · have hbeyond := headers_area hbounds hpoint.one_le hshort hlater harea
      obtain ⟨⟨-, hright⟩, -⟩ := hpoint
      omega
    · obtain hbelow | hwidget := h.contentCalls_area hbounds hcontent harea
      · obtain ⟨-, -, hbottom⟩ := hpoint
        omega
      · exact hfree hwidget
  have hactive : (k = toSizeT self.activeTab) = (tab.active = true) := by
    have hindex := toSizeT_of_nonneg h.index_nonneg
    rw [h.active_iff k tab htab, eq_iff_iff]
    omega
  obtain ⟨hlettered, hplain⟩ := run_header hbounds hk hpoint hsized.fits hinside' hsecond
  simp only [hframe]
  refine ⟨hlettered, fun hnot => ?_⟩
  rw [hplain hnot]
  simp only [hactive]

theorem Marked.content_shown (h : self.Marked) (htabs : self.tabs ≠ []) (hbounds : Roomy bounds)
    {canvas after : Canvas} (hfits : canvas.Fits) (hafter : self.render beyond draws bounds canvas = some after)
    (hleft : bounds.x.toInt ≤ px) (hright : px < bounds.x.toInt + bounds.width.toInt)
    (htop : bounds.y.toInt + 30 ≤ py) (hbottom : py < bounds.y.toInt + bounds.height.toInt)
    (hinside : canvas.Inside px py) (hfree : ¬ self.WidgetPaints beyond draws px py) :
    after.pixel px py = some self.backgroundColor := by
  have hlength : self.tabs.length ≠ 0 := List.length_eq_zero_iff.not.mpr htabs
  have hpointwise := pointwise_step beyond canvas.width canvas.height
  have hshown : self.hasTab self.activeTab = true := by
    have hlt := h.index_lt
    exact hasTab_iff.mpr ⟨h.index_nonneg, by omega⟩
  rw [render, if_neg hlength, contentCalls, if_pos hshown, ← List.cons_append, run_append,
    Option.bind_eq_some_iff] at hafter
  obtain ⟨first, hfirst, hafter⟩ := hafter
  have hsized := hpointwise.run_preserves hfits.sized hfirst
  have hinside' : first.Inside px py := hsized.inside_iff.mpr hinside
  obtain ⟨filled, hfill, hpainted⟩ := drawRect_paints bounds.x (bounds.y + tabHeight) bounds.width
    (bounds.height - tabHeight) self.backgroundColor first hsized.fits
  rw [run_cons, Canvas.step, show first.drawRect _ _ _ _ _ = some filled from hfill, Option.bind_some] at hafter
  have hframe : after.pixel px py = filled.pixel px py := by
    apply hpointwise.run_frame (i := (px, py)) (hsized.painted hpainted) hafter
    exact fun op hop harea => hfree (h.widgetCalls_paint hop harea)
  have hwidth : (bounds.x + bounds.width).toInt = bounds.x.toInt + bounds.width.toInt := by
    have hlow := bounds.x.le_toInt
    have hnonneg := hbounds.width_nonneg
    have hlt := hbounds.right_lt
    exact SumFits.toInt_add ⟨by omega, by omega⟩
  have hsum : (bounds.y + tabHeight + (bounds.height - tabHeight)).toInt =
      bounds.y.toInt + bounds.height.toInt := by
    have hlow := bounds.y.le_toInt
    have hnonneg := hbounds.height_nonneg
    have hlt := hbounds.bottom_lt
    rw [Int32.add_assoc, Int32.add_comm tabHeight, Int32.sub_add_cancel]
    exact SumFits.toInt_add ⟨by omega, by omega⟩
  rw [hframe]
  apply hpainted.pixel_area px py _ hinside'
  rw [hwidth, hsum, toInt_header_bottom hbounds]
  exact ⟨⟨hleft, hright⟩, htop, hbottom⟩

theorem render_total (htabs : self.tabs ≠ []) {canvas : Canvas} (hfits : canvas.Fits) :
    ∃ after, self.render beyond draws bounds canvas = some after := by
  have hlength : self.tabs.length ≠ 0 := List.length_eq_zero_iff.not.mpr htabs
  rw [render, if_neg hlength]
  obtain ⟨after, hafter, -⟩ := hfits.sized.run beyond (.drawRect bounds.x bounds.y bounds.width bounds.height
    self.backgroundColor :: (self.headersFrom bounds.y (self.tabWidth bounds) bounds.x 0 self.tabs ++
      self.contentCalls draws bounds))
  exact ⟨after, hafter⟩

/-- Every sequence of calls is defined. Once there are tabs, one of them is marked
as the active one, and `render` shows it so. -/
theorem always_shows_active (backgroundColor textColor activeColor : UInt32) (ops : List (Op ω)) :
    ∃ self, run step (constructed backgroundColor textColor activeColor) ops = some self ∧
      (self.tabs ≠ [] →
        (∃ k < self.tabs.length, ∀ i tab, self.tabs[i]? = some tab → (tab.active = true ↔ i = k)) ∧
        ∀ beyond draws bounds (canvas : Canvas), Roomy bounds → canvas.Fits →
          ∃ after, self.render beyond draws bounds canvas = some after ∧
            Shows beyond self draws bounds canvas after) := by
  obtain ⟨self, hrun, hmarked⟩ := run_total Marked (fun _ op h => h.step op) ops
    (constructed_marked backgroundColor textColor activeColor)
  refine ⟨self, hrun, fun htabs => ⟨?_, fun beyond draws bounds canvas hbounds hfits => ?_⟩⟩
  · have hlt := hmarked.index_lt
    have hlength : self.tabs.length ≠ 0 := List.length_eq_zero_iff.not.mpr htabs
    have hindex := toSizeT_of_nonneg hmarked.index_nonneg
    refine ⟨toSizeT self.activeTab, by omega, fun i tab htab => ?_⟩
    rw [hmarked.active_iff i tab htab]
    omega
  · obtain ⟨after, hafter⟩ := render_total htabs hfits
    refine ⟨after, hafter, ?_, ?_, ?_⟩
    · intro k tab px py htab hshort hpoint hinside hfree hdrawn
      exact (hmarked.header_shown hbounds hfits hafter htab hshort hpoint hinside hfree).1 hdrawn
    · intro k tab px py htab hshort hpoint hinside hfree hplain
      exact (hmarked.header_shown hbounds hfits hafter htab hshort hpoint hinside hfree).2 hplain
    · intro px py hleft hright htop hbottom hinside hfree
      exact hmarked.content_shown htabs hbounds hfits hafter hleft hright htop hbottom hinside hfree

/-- A canvas of six by two pixels. -/
def flat : Canvas := ⟨6, 2, List.replicate 12 0, false, by decide⟩

/-- The second of two tabs is the active one. -/
theorem always_shows_active_second : ∃ self after,
    run step (constructed 1 2 3 : TabControl Unit) [.addTab [], .addTab [], .setActiveTab 1] = some self ∧
      self.render (fun _ => 0) (fun _ => []) ⟨0, 0, 6, 2⟩ flat = some after ∧
      after.pixel 1 1 = some 1 ∧ after.pixel 4 1 = some 3 := by
  obtain ⟨self, hrun, hshows⟩ := always_shows_active 1 2 3 [.addTab [], .addTab [], (.setActiveTab 1 : Op Unit)]
  obtain rfl : (⟨[⟨[], [], false⟩, ⟨[], [], true⟩], 1, 1, 2, 3⟩ : TabControl Unit) = self :=
    Option.some.inj hrun
  obtain ⟨-, hrender⟩ := hshows (List.cons_ne_nil _ _)
  obtain ⟨after, hafter, -, hplain, -⟩ := hrender (fun _ => 0) (fun _ => []) ⟨0, 0, 6, 2⟩ flat
    ⟨by decide, by decide, by decide, by decide, by decide⟩ ⟨by decide, by decide, by decide⟩
  have hshort (k : Nat) : ShortAfter (⟨[⟨[], [], false⟩, ⟨[], [], true⟩], 1, 1, 2, 3⟩ : TabControl Unit)
      ⟨0, 0, 6, 2⟩ k := by
    intro j later _ hlater
    obtain rfl | rfl := List.mem_pair.mp (List.mem_of_getElem? hlater) <;> decide
  refine ⟨_, after, rfl, hafter, ?_, ?_⟩
  · have hpoint : InHeader (⟨[⟨[], [], false⟩, ⟨[], [], true⟩], 1, 1, 2, 3⟩ : TabControl Unit)
        ⟨0, 0, 6, 2⟩ 0 1 1 := ⟨⟨by decide, by decide⟩, by decide, by decide⟩
    refine hplain 0 ⟨[], [], false⟩ 1 1 rfl (hshort 0) hpoint (by decide) ?_ ?_
    · rintro ⟨_, _, _, _, _, op, hop, _⟩
      cases hop
    · rintro (htop | hfirst | hlast | htext)
      · exact absurd htop (by decide)
      · exact absurd hfirst (by decide)
      · exact absurd hlast (by decide)
      · exact htext
  · have hpoint : InHeader (⟨[⟨[], [], false⟩, ⟨[], [], true⟩], 1, 1, 2, 3⟩ : TabControl Unit)
        ⟨0, 0, 6, 2⟩ 1 4 1 := ⟨⟨by decide, by decide⟩, by decide, by decide⟩
    refine hplain 1 ⟨[], [], true⟩ 4 1 rfl (hshort 1) hpoint (by decide) ?_ ?_
    · rintro ⟨_, _, _, _, _, op, hop, _⟩
      cases hop
    · rintro (htop | hfirst | hlast | htext)
      · exact absurd htop (by decide)
      · exact absurd hfirst (by decide)
      · exact absurd hlast (by decide)
      · exact htext

end TabControl

end UI
