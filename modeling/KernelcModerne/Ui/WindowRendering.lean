import KernelcModerne.Ui.WindowOrder

open Transition

namespace UI

/-- A call that `render` makes, of its own methods, of the display server and of
the windows. -/
inductive FrameCall where
  | beginFrame
  | setupRenderState
  | renderBackground
  | renderWindowShadow (window : Nat)
  | renderFrame (window : Nat)
  | render (window : Nat)
  | renderActiveWindowDecorations (window : Nat)
  | renderOverlays
  | endFrame

/-- The windows whose contents the calls draw. -/
def FrameCall.drawn (calls : List FrameCall) : List Nat :=
  calls.filterMap fun
    | .render window => some window
    | _ => none

/-- The windows that they decorate. -/
def FrameCall.decorated (calls : List FrameCall) : List Nat :=
  calls.filterMap fun
    | .renderActiveWindowDecorations window => some window
    | _ => none

namespace WindowManager

open FrameCall

/-- The calls for one window. -/
def renderWindow (self : WindowManager) (window : Nat) : List FrameCall :=
  [.renderWindowShadow window, .renderFrame window, .render window] ++
    if some window = self.activeWindow then [.renderActiveWindowDecorations window] else []

/-- `render()`, where `visible` answers for each window what `isVisible()` does. -/
def render (self : WindowManager) (visible : Nat → Bool) : List FrameCall :=
  if !self.isInitialized then []
  else
    [.beginFrame, .setupRenderState, .renderBackground] ++
      (self.windows.flatMap fun window => if visible window then self.renderWindow window else []) ++
      [.renderOverlays, .endFrame]

/-- The window that is on top at a point when the frame is drawn. -/
def seenAt (self : WindowManager) (visible : Nat → Bool) (x y : Int32) : Option Nat :=
  Stacking.topmost (fun window => (self.bounds window).contains x y) (drawn (self.render visible))

variable {env : Environment} {self : WindowManager} {visible : Nat → Bool}

theorem drawn_append (first second : List FrameCall) : drawn (first ++ second) = drawn first ++ drawn second :=
  List.filterMap_append

theorem decorated_append (first second : List FrameCall) :
    decorated (first ++ second) = decorated first ++ decorated second :=
  List.filterMap_append

theorem drawn_renderWindow (self : WindowManager) (window : Nat) :
    drawn (self.renderWindow window) = [window] := by
  rw [renderWindow, drawn_append]
  split <;> rfl

theorem decorated_renderWindow (self : WindowManager) (window : Nat) :
    decorated (self.renderWindow window) = if some window = self.activeWindow then [window] else [] := by
  rw [renderWindow, decorated_append]
  split <;> rfl

/-- The visible windows are drawn in their order. -/
theorem drawn_render (hinitialized : self.isInitialized = true) (visible : Nat → Bool) :
    drawn (self.render visible) = self.windows.filter visible := by
  have hwindows (windows : List Nat) :
      drawn (windows.flatMap fun window => if visible window then self.renderWindow window else []) =
        windows.filter visible := by
    induction windows with
    | nil => rfl
    | cons window windows ih =>
      rw [List.flatMap_cons, drawn_append, ih, List.filter_cons]
      split
      · rw [drawn_renderWindow, List.singleton_append]
      · rfl
  rw [render, hinitialized, Bool.not_true, if_neg Bool.false_ne_true, drawn_append, drawn_append, hwindows]
  exact List.append_nil _

theorem decorated_render (hinitialized : self.isInitialized = true) (visible : Nat → Bool) :
    decorated (self.render visible) =
      self.windows.filter fun window => visible window && decide (some window = self.activeWindow) := by
  have hwindows (windows : List Nat) :
      decorated (windows.flatMap fun window => if visible window then self.renderWindow window else []) =
        windows.filter fun window => visible window && decide (some window = self.activeWindow) := by
    induction windows with
    | nil => rfl
    | cons window windows ih =>
      rw [List.flatMap_cons, decorated_append, ih, List.filter_cons]
      by_cases hvisible : visible window = true
      · simp only [hvisible, if_true, decorated_renderWindow, Bool.true_and, decide_eq_true_eq]
        split <;> rfl
      · rw [if_neg hvisible, if_neg (by simp [hvisible])]
        rfl
  rw [render, hinitialized, Bool.not_true, if_neg Bool.false_ne_true, decorated_append, decorated_append, hwindows]
  exact List.append_nil _

/-- Before the manager is initialized nothing is drawn. -/
theorem render_uninitialized (hinitialized : self.isInitialized = false) (visible : Nat → Bool) :
    self.render visible = [] := by
  rw [render, hinitialized]
  rfl

/-- What the frames of one state show. Each window of the list that is visible is
drawn once, and none but the active one is decorated; the window that is on top at
a point is the one that gets the mouse there exactly where the one that gets it is
visible; a press on it draws it last and decorated from then on. -/
structure Renders (env : Environment) (manager : WindowManager) : Prop where
  nodup : ∀ visible, (drawn (manager.render visible)).Nodup
  mem_iff : ∀ visible window, window ∈ drawn (manager.render visible) ↔
    manager.isInitialized = true ∧ window ∈ manager.windows ∧ visible window = true
  decorated : ∀ visible window, window ∈ decorated (manager.render visible) ↔
    window ∈ drawn (manager.render visible) ∧ manager.activeWindow = some window
  seenAt_iff : ∀ visible x y, manager.isInitialized = true →
    (manager.seenAt visible x y = manager.windowAt x y ↔
      ∀ window, manager.windowAt x y = some window → visible window = true)
  press : ∀ visible button x y window, manager.seenAt visible x y = some window →
    manager.windowAt x y = some window →
    (drawn ((manager.handleMouseButton env button true x y).render visible)).getLast? = some window ∧
      FrameCall.decorated ((manager.handleMouseButton env button true x y).render visible) = [window] ∧
      (manager.handleMouseButton env button true x y).seenAt visible x y = some window

theorem seenAt_eq (hinitialized : self.isInitialized = true) (visible : Nat → Bool) (x y : Int32) :
    self.seenAt visible x y =
      Stacking.topmost (fun window => (self.bounds window).contains x y) (self.windows.filter visible) := by
  rw [seenAt, drawn_render hinitialized]

/-- What is seen is drawn, and contains the point. -/
theorem of_seenAt {x y : Int32} {window : Nat} (h : self.seenAt visible x y = some window) :
    self.isInitialized = true ∧ visible window = true ∧ (self.bounds window).contains x y = true := by
  obtain ⟨hdrawn, hcontains⟩ := Stacking.topmost_mem h
  cases hinitialized : self.isInitialized with
  | false =>
    rw [render_uninitialized hinitialized] at hdrawn
    cases hdrawn
  | true =>
    rw [drawn_render hinitialized, List.mem_filter] at hdrawn
    exact ⟨rfl, hdrawn.2, hcontains⟩

theorem handleMouseButton_isInitialized (self : WindowManager) (env : Environment) (button : Int32) (pressed : Bool)
    (x y : Int32) : (self.handleMouseButton env button pressed x y).isInitialized = self.isInitialized := by
  unfold handleMouseButton
  split
  · rfl
  · next window _ =>
    simp only [focusWindow_some, WindowManager.call]
    split <;> split <;> rfl

/-- A press on a window that is seen. -/
theorem press_renders (env : Environment) (button : Int32) {x y : Int32} {window : Nat} (hnodup : self.windows.Nodup)
    (hseen : self.seenAt visible x y = some window) (hat : self.windowAt x y = some window) :
    (drawn ((self.handleMouseButton env button true x y).render visible)).getLast? = some window ∧
      decorated ((self.handleMouseButton env button true x y).render visible) = [window] ∧
      (self.handleMouseButton env button true x y).seenAt visible x y = some window := by
  obtain ⟨hinitialized, hvisible, hcontains⟩ := of_seenAt hseen
  obtain ⟨hwindows, hactive, hbounds⟩ := handleMouseButton_press env button hat
  have hinitialized' : (self.handleMouseButton env button true x y).isInitialized = true :=
    (handleMouseButton_isInitialized self env button true x y).trans hinitialized
  have hraised : Stacking.raise window self.windows = self.windows.erase window ++ [window] :=
    if_pos (windowAt_mem hat)
  have hdrawn : drawn ((self.handleMouseButton env button true x y).render visible) =
      (self.windows.erase window).filter visible ++ [window] := by
    rw [drawn_render hinitialized', hwindows, hraised, List.filter_append, List.filter_cons_of_pos hvisible,
      List.filter_nil]
  refine ⟨?_, ?_, ?_⟩
  · rw [hdrawn, List.getLast?_concat]
  · have hothers : (self.windows.erase window).filter
        (fun other => visible other && decide (some other = some window)) = [] := by
      rw [List.filter_eq_nil_iff]
      intro other hother hboth
      rw [Bool.and_eq_true, decide_eq_true_eq, Option.some.injEq] at hboth
      exact hnodup.not_mem_erase (hboth.2 ▸ hother)
    rw [decorated_render hinitialized', hwindows, hactive, hraised, List.filter_append, hothers,
      List.filter_cons_of_pos (by simp [hvisible]), List.filter_nil, List.nil_append]
  · rw [seenAt, hdrawn, hbounds]
    exact Stacking.topmost_concat _ _ hcontains

theorem Listed.renders (h : self.Listed) : self.Renders env where
  nodup visible := by
    cases hinitialized : self.isInitialized with
    | false =>
      rw [render_uninitialized hinitialized]
      exact .nil
    | true =>
      rw [drawn_render hinitialized]
      exact h.nodup.filter visible
  mem_iff visible window := by
    cases hinitialized : self.isInitialized with
    | false =>
      rw [render_uninitialized hinitialized]
      simp [drawn]
    | true => rw [drawn_render hinitialized, List.mem_filter, and_iff_right rfl]
  decorated visible window := by
    cases hinitialized : self.isInitialized with
    | false =>
      rw [render_uninitialized hinitialized]
      simp [drawn, FrameCall.decorated]
    | true =>
      rw [decorated_render hinitialized, drawn_render hinitialized, List.mem_filter, List.mem_filter, Bool.and_eq_true,
        decide_eq_true_eq, and_assoc, eq_comm (a := some window)]
  seenAt_iff visible x y hinitialized := by
    rw [seenAt_eq hinitialized, windowAt_eq]
    exact Stacking.topmost_filter_iff _ visible
  press visible button x y window hseen hat := press_renders env button h.nodup hseen hat

/-- In every state of a run the frames show the windows as the mouse finds them,
but for those that are not visible and in its way. -/
theorem frames_shown (env : Environment) (focusedWidget : Option Nat) (bounds : Nat → Bounds) (ops : List Op) :
    Always (step env) (Renders env) (constructed focusedWidget bounds) ops := by
  have hinit : (constructed focusedWidget bounds).Listed :=
    ⟨.nil, fun window hwindow => absurd hwindow List.not_mem_nil⟩
  have hlisted : Always (step env) Listed (constructed focusedWidget bounds) ops :=
    always_of_step (fun _ _ _ h hstep => h.step hstep) ops hinit
  exact hlisted.imp fun _ h => h.renders

end WindowManager

end UI
