import KernelcModerne.Ui.WindowManager

open Transition

namespace UI.WindowManager

variable {env : Environment} {self after : WindowManager}

/-- The active window is null or in the list. -/
def FocusListed (self : WindowManager) : Prop :=
  ∀ window, self.activeWindow = some window → window ∈ self.windows

/-- The windows that key events are forwarded to. -/
def keyTargets (calls : List Call) : List Nat :=
  calls.filterMap fun
    | .handleKeyEvent window _ _ => some window
    | _ => none

/-- The key events forwarded between two states go to windows of the list. -/
def RoutesToListed (before after : WindowManager) : Prop :=
  ∃ made, after.calls = before.calls ++ made ∧ ∀ window ∈ keyTargets made, window ∈ after.windows

/-- Only a window of the list is focused, and the manager is shut down only
without an active window. -/
def KeepsFocus (self : WindowManager) : Op → Prop
  | .focusWindow (some window) => window ∈ self.windows
  | .shutdown => self.activeWindow = none
  | _ => True

theorem RoutesToListed.refl (self : WindowManager) : self.RoutesToListed self :=
  ⟨[], (List.append_nil _).symm, by simp [keyTargets]⟩

theorem RoutesToListed.trans {before between after : WindowManager} (hfirst : before.RoutesToListed between)
    (hsecond : between.RoutesToListed after)
    (hwindows : ∀ window ∈ between.windows, window ∈ after.windows) : before.RoutesToListed after := by
  obtain ⟨made, hcalls, htargets⟩ := hfirst
  obtain ⟨made', hcalls', htargets'⟩ := hsecond
  refine ⟨made ++ made', by rw [hcalls', hcalls, List.append_assoc], fun window hwindow => ?_⟩
  rw [keyTargets, List.filterMap_append, List.mem_append] at hwindow
  cases hwindow with
  | inl hmade => exact hwindows window (htargets window hmade)
  | inr hmade => exact htargets' window hmade

/-- Calls that forward no key event. -/
theorem RoutesToListed.of_calls {before after : WindowManager} {made : List Call}
    (hcalls : after.calls = before.calls ++ made) (hnone : keyTargets made = []) :
    before.RoutesToListed after :=
  ⟨made, hcalls, by simp [hnone]⟩

/-- What a handler does that keeps the windows, up to their order: it leaves the
active window or takes one of the list, and forwards key events to windows of
the list. -/
structure Handles (before after : WindowManager) : Prop where
  windows : after.windows.Perm before.windows
  made : after.made = before.made
  active : after.activeWindow = before.activeWindow ∨
    ∃ window ∈ before.windows, after.activeWindow = some window
  routes : before.FocusListed → before.RoutesToListed after

theorem Handles.focusListed (h : self.Handles after) (hfocus : self.FocusListed) : after.FocusListed := by
  intro window hactive
  rw [h.windows.mem_iff]
  cases h.active with
  | inl hsame => exact hfocus window (hsame ▸ hactive)
  | inr hlisted =>
    obtain ⟨other, hother, hset⟩ := hlisted
    obtain rfl := Option.some.inj (hset.symm.trans hactive)
    exact hother

theorem Handles.trans {before between after : WindowManager} (hfirst : before.Handles between)
    (hsecond : between.Handles after) : before.Handles after where
  windows := hsecond.windows.trans hfirst.windows
  made := hsecond.made.trans hfirst.made
  active := by
    cases hsecond.active with
    | inl hsame => rw [hsame]; exact hfirst.active
    | inr hlisted =>
      obtain ⟨window, hwindow, hset⟩ := hlisted
      exact .inr ⟨window, hfirst.windows.mem_iff.mp hwindow, hset⟩
  routes hfocus := (hfirst.routes hfocus).trans (hsecond.routes (hfirst.focusListed hfocus))
    fun _ hwindow => hsecond.windows.mem_iff.mpr hwindow

/-- A handler that keeps the list and the active window. -/
theorem Handles.of_eq (hwindows : after.windows = self.windows) (hmade : after.made = self.made)
    (hactive : after.activeWindow = self.activeWindow) {calls : List Call}
    (hcalls : after.calls = self.calls ++ calls) (hnone : keyTargets calls = []) : self.Handles after where
  windows := hwindows ▸ .refl _
  made := hmade
  active := .inl hactive
  routes _ := .of_calls hcalls hnone

theorem Handles.refl (self : WindowManager) : self.Handles self where
  windows := .refl _
  made := rfl
  active := .inl rfl
  routes _ := .refl self

theorem Handles.call (self : WindowManager) {calls : List Call} (h : keyTargets calls = []) :
    self.Handles (self.call calls) := .of_eq rfl rfl rfl rfl h

/-- `bringToFront` of a window that is not null raises it in the list. -/
theorem bringToFront_windows (self : WindowManager) (window : Nat) :
    self.bringToFront (some window) = { self with windows := Stacking.raise window self.windows } := by
  simp only [bringToFront, Stacking.raise]
  split <;> rfl

theorem sendToBack_windows (self : WindowManager) (window : Nat) :
    self.sendToBack (some window) = { self with windows := Stacking.lower window self.windows } := by
  simp only [sendToBack, Stacking.lower]
  split <;> rfl

/-- `focusWindow` makes the window active, listed or not, and raises it. -/
theorem focusWindow_some (self : WindowManager) (window : Nat) :
    self.focusWindow (some window) =
      { self with
        windows := Stacking.raise window self.windows
        activeWindow := some window
        calls := self.calls ++ (self.activeWindow.map Call.unfocus).toList ++ [.focus window] } := by
  simp only [focusWindow, bringToFront_windows]
  rfl

theorem windowAt_mem {x y : Int32} {window : Nat} (h : self.windowAt x y = some window) :
    window ∈ self.windows :=
  List.mem_reverse.mp (List.mem_of_find?_eq_some h)

theorem keyTargets_unfocus (active : Option Nat) (window : Nat) :
    keyTargets ((active.map Call.unfocus).toList ++ [.focus window]) = [] := by
  cases active <;> rfl

theorem Handles.focusWindow {window : Nat} (h : window ∈ self.windows) :
    self.Handles (self.focusWindow (some window)) := by
  rw [focusWindow_some]
  refine ⟨Stacking.raise_perm window self.windows, rfl, .inr ⟨window, h, rfl⟩, fun _ => ?_⟩
  exact .of_calls (List.append_assoc _ _ _) (keyTargets_unfocus _ _)

theorem Handles.handleMouseMove (self : WindowManager) (x y : Int32) :
    self.Handles (self.handleMouseMove x y) := by
  unfold WindowManager.handleMouseMove
  split
  · exact .refl self
  · exact .call self rfl

theorem Handles.handleMouseButton (self : WindowManager) (button : Int32) (pressed : Bool) (x y : Int32) :
    self.Handles (self.handleMouseButton env button pressed x y) := by
  unfold WindowManager.handleMouseButton
  split
  · exact .refl self
  · next window hwindow =>
    refine Handles.trans ?_ (.call _ rfl)
    split
    · have hfocus := Handles.focusWindow (windowAt_mem hwindow)
      split
      · exact hfocus.trans (.call _ rfl)
      · exact hfocus
    · split
      · exact .call self rfl
      · exact .refl self

theorem Handles.handleKeyEvent (self : WindowManager) (keycode : Int32) (pressed : Bool) :
    self.Handles (self.handleKeyEvent env keycode pressed) := by
  unfold WindowManager.handleKeyEvent
  split
  · exact .refl self
  · next window hactive =>
    split
    · exact .refl self
    · refine ⟨.refl _, rfl, .inl rfl, fun hfocus => ⟨_, rfl, fun target htarget => ?_⟩⟩
      obtain rfl : target = window := by
        cases hwidget : self.focusedWidget with
        | none => simpa [keyTargets, hwidget] using htarget
        | some widget => simpa [keyTargets, hwidget] using htarget
      exact hfocus target hactive

theorem Handles.handleResize (self : WindowManager) (width height : Int32) :
    self.Handles (self.handleResize width height) := by
  unfold WindowManager.handleResize
  split
  · exact .refl self
  · refine List.foldlRecOn (motive := fun after : WindowManager => self.Handles after) _ _ (.refl self) ?_
    intro after hafter window _
    exact hafter.trans (.of_eq rfl rfl rfl rfl rfl)

theorem Handles.dispatch (self : WindowManager) (event : Event) : self.Handles (self.dispatch env event) := by
  unfold WindowManager.dispatch
  split
  · exact .handleMouseMove self _ _
  · exact .handleMouseButton self _ _ _ _
  · exact .handleKeyEvent self _ _
  · exact .handleKeyEvent self _ _
  · exact .handleResize self _ _
  all_goals exact .refl self

theorem keyTargets_processEvents (windows : List Nat) : keyTargets (windows.map Call.processEvents) = [] := by
  simp [keyTargets]

theorem Handles.processEvents (self : WindowManager) (events : List Event) :
    self.Handles (self.processEvents env events) := by
  unfold WindowManager.processEvents
  split
  · exact .refl self
  · have hloop : self.Handles (events.foldl (WindowManager.dispatch env) self) := by
      refine List.foldlRecOn (motive := fun after : WindowManager => self.Handles after) _ _ (.refl self) ?_
      intro after hafter event _
      exact hafter.trans (.dispatch after event)
    exact hloop.trans (.call _ (keyTargets_processEvents _))

/-- Raising and lowering keep the windows; destroying one loses no other. -/
theorem Handles.bringToFront (self : WindowManager) (window : Option Nat) :
    self.Handles (self.bringToFront window) := by
  cases window with
  | none => exact .refl self
  | some window =>
    rw [bringToFront_windows]
    exact ⟨Stacking.raise_perm window self.windows, rfl, .inl rfl, fun _ => .refl _⟩

theorem Handles.sendToBack (self : WindowManager) (window : Option Nat) :
    self.Handles (self.sendToBack window) := by
  cases window with
  | none => exact .refl self
  | some window =>
    rw [sendToBack_windows]
    exact ⟨Stacking.lower_perm window self.windows, rfl, .inl rfl, fun _ => .refl _⟩

theorem FocusListed.destroyWindow (h : self.FocusListed) (window : Option Nat) :
    (self.destroyWindow window).FocusListed := by
  intro other hactive
  cases window with
  | none =>
    simp only [WindowManager.destroyWindow] at hactive ⊢
    split at hactive
    · cases hactive
    · next hnull =>
      rw [if_neg hnull]
      exact h other hactive
  | some window =>
    simp only [WindowManager.destroyWindow] at hactive ⊢
    split at hactive
    · cases hactive
    · next hother =>
      -- the window that goes is not the active one
      rw [if_neg hother]
      have hne : other ≠ window := by
        rintro rfl
        exact hother hactive.symm
      exact (List.mem_erase_of_ne hne).mpr (h other hactive)

theorem FocusListed.createWindow (h : self.FocusListed) (x y width height : Int32) :
    (self.createWindow x y width height).FocusListed :=
  fun window hactive => List.mem_append_left _ (h window hactive)

/-- Key events go to listed windows in every call from such a state. -/
theorem FocusListed.routes (h : self.FocusListed) {op : Op} (hstep : self.step env op = some after) :
    self.RoutesToListed after := by
  cases op with
  | initializeDisplay ok =>
    obtain rfl := Option.some.inj hstep
    have hcalls : (self.initializeDisplay ok).calls = self.calls ++ [] := by
      simp only [WindowManager.initializeDisplay]
      split <;> simp
    exact .of_calls hcalls rfl
  | shutdown =>
    obtain rfl := Option.some.inj hstep
    exact .of_calls (List.append_nil _).symm rfl
  | createWindow x y width height =>
    obtain rfl := Option.some.inj hstep
    exact .of_calls (List.append_nil _).symm rfl
  | destroyWindow window =>
    obtain rfl := Option.some.inj hstep
    have hcalls : (self.destroyWindow window).calls = self.calls ++ [] := by
      cases window <;> simp only [WindowManager.destroyWindow] <;> split <;> simp
    exact .of_calls hcalls rfl
  | focusWindow window =>
    obtain rfl := Option.some.inj hstep
    cases window with
    | none =>
      refine .of_calls rfl ?_
      cases self.activeWindow <;> rfl
    | some window =>
      rw [focusWindow_some]
      exact .of_calls (List.append_assoc _ _ _) (keyTargets_unfocus _ _)
  | bringToFront window =>
    obtain rfl := Option.some.inj hstep
    exact (Handles.bringToFront self window).routes h
  | sendToBack window =>
    obtain rfl := Option.some.inj hstep
    exact (Handles.sendToBack self window).routes h
  | handleMouseButton button pressed x y =>
    obtain rfl := Option.some.inj hstep
    exact (Handles.handleMouseButton self button pressed x y).routes h
  | processEvents events =>
    obtain rfl := Option.some.inj hstep
    exact (Handles.processEvents self events).routes h
  | setBounds window bounds =>
    obtain rfl := Option.some.inj hstep
    exact .of_calls (List.append_nil _).symm rfl

theorem focusListed_focusWindow_iff (self : WindowManager) (window : Nat) :
    (self.focusWindow (some window)).FocusListed ↔ window ∈ self.windows := by
  rw [focusWindow_some]
  constructor
  · intro h
    exact Stacking.mem_raise.mp (h window rfl)
  · intro hmem other hactive
    obtain rfl := Option.some.inj hactive
    exact Stacking.mem_raise.mpr hmem

/-- The list is empty after `shutdown`, and the active window is as it was. -/
theorem focusListed_shutdown_iff (self : WindowManager) :
    self.shutdown.FocusListed ↔ self.activeWindow = none := by
  constructor
  · intro h
    cases hactive : self.activeWindow with
    | none => rfl
    | some window => exact absurd (h window hactive) List.not_mem_nil
  · intro hnull window hactive
    exact absurd (hnull.symm.trans hactive) (by simp)

/-- From a state with a listed focus, a call keeps it exactly when it focuses no
other window and does not shut down under an active one. -/
theorem FocusListed.step_iff (h : self.FocusListed) {op : Op} (hstep : self.step env op = some after) :
    after.FocusListed ↔ self.KeepsFocus op := by
  cases op with
  | initializeDisplay ok =>
    obtain rfl := Option.some.inj hstep
    refine iff_of_true ?_ trivial
    simp only [WindowManager.initializeDisplay]
    split <;> exact h
  | shutdown =>
    obtain rfl := Option.some.inj hstep
    exact focusListed_shutdown_iff self
  | createWindow x y width height =>
    obtain rfl := Option.some.inj hstep
    exact iff_of_true (h.createWindow x y width height) trivial
  | destroyWindow window =>
    obtain rfl := Option.some.inj hstep
    exact iff_of_true (h.destroyWindow window) trivial
  | focusWindow window =>
    obtain rfl := Option.some.inj hstep
    cases window with
    | none => exact iff_of_true (fun window hactive => by cases hactive) trivial
    | some window => exact focusListed_focusWindow_iff self window
  | bringToFront window =>
    obtain rfl := Option.some.inj hstep
    exact iff_of_true ((Handles.bringToFront self window).focusListed h) trivial
  | sendToBack window =>
    obtain rfl := Option.some.inj hstep
    exact iff_of_true ((Handles.sendToBack self window).focusListed h) trivial
  | handleMouseButton button pressed x y =>
    obtain rfl := Option.some.inj hstep
    exact iff_of_true ((Handles.handleMouseButton self button pressed x y).focusListed h) trivial
  | processEvents events =>
    obtain rfl := Option.some.inj hstep
    exact iff_of_true ((Handles.processEvents self events).focusListed h) trivial
  | setBounds window bounds =>
    obtain rfl := Option.some.inj hstep
    exact iff_of_true h trivial

/-- The active window is null or listed in every state of a run, and key events
go to listed windows only, exactly when the calls of the run keep the focus. -/
theorem focus_listed_iff (env : Environment) (focusedWidget : Option Nat) (bounds : Nat → Bounds)
    (ops : List Op) :
    Always (step env) FocusListed (constructed focusedWidget bounds) ops ∧
        Along (step env) (fun before _ after => before.RoutesToListed after) (constructed focusedWidget bounds) ops ↔
      Guarded (step env) KeepsFocus (constructed focusedWidget bounds) ops := by
  have hinit : (constructed focusedWidget bounds).FocusListed := fun window hactive => by cases hactive
  have hiff : Along (step env) (fun _ _ after => after.FocusListed) (constructed focusedWidget bounds) ops ↔
      Guarded (step env) KeepsFocus (constructed focusedWidget bounds) ops :=
    along_iff_along FocusListed
      (fun self op after h (hstep : self.step env op = some after) => h.step_iff hstep)
      (fun _ _ _ _ _ hafter => hafter) ops hinit
  constructor
  · intro hall
    exact hiff.mp hall.1.2
  · intro hkeeps
    refine ⟨⟨hinit, hiff.mpr hkeeps⟩, ?_⟩
    exact along_of_guarded FocusListed
      (fun self op after h hguard (hstep : self.step env op = some after) =>
        ⟨h.routes hstep, (h.step_iff hstep).mpr hguard⟩) ops hinit hkeeps

/-- A window stays active over `shutdown`. -/
theorem active_after_shutdown :
    ¬ Always (step ⟨1, fun _ _ => false⟩) FocusListed (constructed none fun _ => ⟨0, 0, 0, 0⟩)
      [.createWindow 0 0 640 480, .focusWindow (some 0), .shutdown] := by
  rintro ⟨_, h⟩
  obtain ⟨_, h⟩ := h _ rfl
  obtain ⟨_, h⟩ := h _ rfl
  obtain ⟨hlisted, _⟩ := h _ rfl
  exact absurd (hlisted 0 rfl) (by decide)

end UI.WindowManager
