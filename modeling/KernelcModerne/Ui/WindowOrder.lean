import KernelcModerne.Ui.Canvas
import KernelcModerne.Ui.WindowFocus

open Transition

namespace UI

/-- The right and the lower edge can be computed in `int`. -/
structure Bounds.Fits (bounds : Bounds) : Prop where
  right : Canvas.SumFits bounds.x bounds.width
  bottom : Canvas.SumFits bounds.y bounds.height

/-- The point lies in the window. -/
def Bounds.Inside (self : Bounds) (x y : Int32) : Prop :=
  (self.x.toInt ≤ x.toInt ∧ x.toInt < self.x.toInt + self.width.toInt) ∧
    self.y.toInt ≤ y.toInt ∧ y.toInt < self.y.toInt + self.height.toInt

/-- Where its sums do not overflow, the hit test finds the points of the window. -/
theorem Bounds.Fits.contains_iff {bounds : Bounds} (h : bounds.Fits) (x y : Int32) :
    bounds.contains x y = true ↔ bounds.Inside x y := by
  unfold Bounds.contains Bounds.Inside
  simp only [decide_eq_true_eq, ge_iff_le, Int32.le_iff_toInt_le, Int32.lt_iff_toInt_lt, h.right.toInt_add,
    h.bottom.toInt_add, and_assoc]

namespace WindowManager

variable {env : Environment} {self after : WindowManager}

/-- `bringToFront` moves a listed window to the end and `sendToBack` to the
start; the others keep their order. Both ignore any other window. -/
def MovesOne (self : WindowManager) : Prop :=
  ∀ window,
    (window ∈ self.windows →
      (self.bringToFront (some window)).windows.getLast? = some window ∧
        (self.bringToFront (some window)).windows.filter (· ≠ window) = self.windows.filter (· ≠ window) ∧
        (self.sendToBack (some window)).windows.head? = some window ∧
        (self.sendToBack (some window)).windows.filter (· ≠ window) = self.windows.filter (· ≠ window)) ∧
      (window ∉ self.windows →
        self.bringToFront (some window) = self ∧ self.sendToBack (some window) = self)

/-- A press makes the last window of the list that contains the point the active
one and the last, and changes nothing when there is none; the same press again
leaves the list. -/
def PressesTopmost (env : Environment) (self : WindowManager) : Prop :=
  ∀ button x y,
    (match Stacking.topmost (fun window => (self.bounds window).contains x y) self.windows with
      | none => self.handleMouseButton env button true x y = self
      | some window =>
        (self.handleMouseButton env button true x y).activeWindow = some window ∧
          (self.handleMouseButton env button true x y).windows.getLast? = some window) ∧
      ((self.handleMouseButton env button true x y).handleMouseButton env button true x y).windows =
        (self.handleMouseButton env button true x y).windows

/-- The order of the windows in one state: no window twice, and what the
operations do to it. The hit test of a press is that of the code, in `int`: it
finds the points of a window whose edges can be computed. -/
structure Ordered (env : Environment) (manager : WindowManager) : Prop where
  nodup : manager.windows.Nodup
  moves : manager.MovesOne
  presses : manager.PressesTopmost env
  hits : ∀ window x y, (manager.bounds window).Fits →
    ((manager.bounds window).contains x y = true ↔ (manager.bounds window).Inside x y)

theorem movesOne (self : WindowManager) : self.MovesOne := by
  intro window
  rw [bringToFront_windows, sendToBack_windows]
  constructor
  · intro hmem
    exact ⟨Stacking.getLast?_raise hmem, Stacking.filter_raise window self.windows,
      Stacking.head?_lower hmem, Stacking.filter_lower window self.windows⟩
  · intro hmem
    rw [Stacking.raise_of_notMem hmem, Stacking.lower_of_notMem hmem]
    exact ⟨rfl, rfl⟩

theorem windowAt_eq (self : WindowManager) (x y : Int32) :
    self.windowAt x y = Stacking.topmost (fun window => (self.bounds window).contains x y) self.windows :=
  (Stacking.topmost_eq_find? _ _).symm

/-- What a press on a window leaves. -/
theorem handleMouseButton_press (env : Environment) (button : Int32) {x y : Int32} {window : Nat}
    (h : self.windowAt x y = some window) :
    (self.handleMouseButton env button true x y).windows = Stacking.raise window self.windows ∧
      (self.handleMouseButton env button true x y).activeWindow = some window ∧
      (self.handleMouseButton env button true x y).bounds = self.bounds := by
  simp only [handleMouseButton, h, if_true, focusWindow_some]
  split <;> exact ⟨rfl, rfl, rfl⟩

theorem handleMouseButton_miss {button x y : Int32} {pressed : Bool} (h : self.windowAt x y = none) :
    self.handleMouseButton env button pressed x y = self := by
  simp only [handleMouseButton, h]

theorem pressesTopmost (hnodup : self.windows.Nodup) : self.PressesTopmost env := by
  intro button x y
  rw [← windowAt_eq]
  cases hat : self.windowAt x y with
  | none => simp only [handleMouseButton_miss hat, and_self]
  | some window =>
    obtain ⟨hwindows, hactive, hbounds⟩ := handleMouseButton_press env button hat
    have hmem := windowAt_mem hat
    refine ⟨⟨hactive, hwindows ▸ Stacking.getLast?_raise hmem⟩, ?_⟩
    have hagain : (self.handleMouseButton env button true x y).windowAt x y = some window := by
      rw [windowAt_eq] at hat ⊢
      rw [hwindows, hbounds]
      exact Stacking.topmost_raise hat
    rw [(handleMouseButton_press env button hagain).1, hwindows, Stacking.raise_raise hnodup]

theorem ordered_of_nodup (h : self.windows.Nodup) : self.Ordered env where
  nodup := h
  moves := movesOne self
  presses := pressesTopmost h
  hits _ x y hfits := hfits.contains_iff x y

/-- No window is listed twice, and those listed have been made. -/
structure Listed (manager : WindowManager) : Prop where
  nodup : manager.windows.Nodup
  made : ∀ window ∈ manager.windows, window < manager.made

theorem Handles.listed (h : self.Handles after) (hlisted : self.Listed) : after.Listed where
  nodup := h.windows.nodup_iff.mpr hlisted.nodup
  made window hwindow := h.made ▸ hlisted.made window (h.windows.mem_iff.mp hwindow)

theorem Listed.destroyWindow (h : self.Listed) (window : Option Nat) : (self.destroyWindow window).Listed := by
  cases window with
  | none =>
    simp only [WindowManager.destroyWindow]
    split <;> exact ⟨h.nodup, h.made⟩
  | some window =>
    have hmade : ∀ other ∈ self.windows.erase window, other < self.made :=
      fun other hother => h.made other (List.mem_of_mem_erase hother)
    simp only [WindowManager.destroyWindow]
    split <;> exact ⟨h.nodup.erase window, hmade⟩

/-- A window that is made is not listed yet. -/
theorem Listed.createWindow (h : self.Listed) (x y width height : Int32) :
    (self.createWindow x y width height).Listed where
  nodup := by
    refine List.nodup_append.mpr ⟨h.nodup, List.nodup_singleton _, ?_⟩
    intro window hwindow other hother
    rw [List.mem_singleton.mp hother]
    exact (h.made window hwindow).ne
  made := by
    intro window hwindow
    have hlt : window < self.made + 1 := by
      cases List.mem_append.mp hwindow with
      | inl hold => exact (h.made window hold).trans (Nat.lt_succ_self _)
      | inr hnew => exact List.mem_singleton.mp hnew ▸ Nat.lt_succ_self _
    exact hlt

theorem Listed.step (h : self.Listed) {op : Op} (hstep : self.step env op = some after) : after.Listed := by
  cases op with
  | initializeDisplay ok =>
    obtain rfl := Option.some.inj hstep
    simp only [WindowManager.initializeDisplay]
    split <;> exact ⟨h.nodup, h.made⟩
  | shutdown =>
    obtain rfl := Option.some.inj hstep
    exact ⟨.nil, fun window hwindow => absurd hwindow List.not_mem_nil⟩
  | createWindow x y width height =>
    obtain rfl := Option.some.inj hstep
    exact h.createWindow x y width height
  | destroyWindow window =>
    obtain rfl := Option.some.inj hstep
    exact h.destroyWindow window
  | focusWindow window =>
    obtain rfl := Option.some.inj hstep
    cases window with
    | none => exact ⟨h.nodup, h.made⟩
    | some window =>
      rw [focusWindow_some]
      have hperm := Stacking.raise_perm window self.windows
      exact ⟨hperm.nodup_iff.mpr h.nodup, fun other hother => h.made other (hperm.mem_iff.mp hother)⟩
  | bringToFront window =>
    obtain rfl := Option.some.inj hstep
    exact (Handles.bringToFront self window).listed h
  | sendToBack window =>
    obtain rfl := Option.some.inj hstep
    exact (Handles.sendToBack self window).listed h
  | handleMouseButton button pressed x y =>
    obtain rfl := Option.some.inj hstep
    exact (Handles.handleMouseButton self button pressed x y).listed h
  | processEvents events =>
    obtain rfl := Option.some.inj hstep
    exact (Handles.processEvents self events).listed h
  | setBounds window bounds =>
    obtain rfl := Option.some.inj hstep
    exact ⟨h.nodup, h.made⟩

/-- In every state of a run no window is listed twice, the operations on the
order move one window, and a press raises the topmost window at its point. -/
theorem windows_ordered (env : Environment) (focusedWidget : Option Nat) (bounds : Nat → Bounds) (ops : List Op) :
    Always (step env) (Ordered env) (constructed focusedWidget bounds) ops := by
  have hinit : (constructed focusedWidget bounds).Listed :=
    ⟨.nil, fun window hwindow => absurd hwindow List.not_mem_nil⟩
  have hlisted : Always (step env) Listed (constructed focusedWidget bounds) ops :=
    always_of_step (fun _ _ _ h hstep => h.step hstep) ops hinit
  exact hlisted.imp fun _ h => ordered_of_nodup h.nodup

end WindowManager

end UI
