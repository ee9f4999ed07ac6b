import Mathlib.Logic.Function.Basic
import KernelcModerne.Lib.Stacking
import KernelcModerne.Lib.Transition

namespace UI

structure Bounds where
  x : Int32
  y : Int32
  width : Int32
  height : Int32
  deriving DecidableEq

/-- The hit test of the mouse handlers. Its sums are `int`s. -/
def Bounds.contains (self : Bounds) (x y : Int32) : Bool :=
  decide (x ≥ self.x ∧ x < self.x + self.width ∧ y ≥ self.y ∧ y < self.y + self.height)

/-- A window moved into the work area, from (0, 0) to (`width`, `height`). -/
def Bounds.intoWorkArea (self : Bounds) (width height : Int32) : Bounds :=
  { self with
    x := max 0 (min self.x (0 + width - self.width))
    y := max 0 (min self.y (0 + height - self.height)) }

inductive EventType where
  | MouseMove
  | MouseButton
  | KeyPress
  | KeyRelease
  | WindowResize
  | WindowClose
  | Focus
  | Blur
  deriving DecidableEq

structure Event where
  type : EventType
  x : Int32 := 0
  y : Int32 := 0
  button : Int32 := 0
  keycode : Int32 := 0

/-- A call of a method of a window object, or of the focused widget. -/
inductive Call where
  | focus (window : Nat)
  | unfocus (window : Nat)
  | startDrag (window : Nat) (x y : Int32)
  | endDrag (window : Nat)
  | handleHover (window : Nat) (x y : Int32)
  | handleMouseMove (window : Nat) (x y : Int32)
  | handleMouseButton (window : Nat) (button : Int32) (pressed : Bool) (x y : Int32)
  | handleKeyEvent (window : Nat) (keycode : Int32) (pressed : Bool)
  | widgetKeyEvent (widget : Nat) (keycode : Int32) (pressed : Bool)
  | handleResize (window : Nat)
  | processEvents (window : Nat)
  deriving DecidableEq

/-- What the manager uses from elsewhere: the code of the left button, and
whether a key event is a global hotkey. -/
structure Environment where
  MOUSE_LEFT : Int32
  handleGlobalHotkey : Int32 → Bool → Bool

/-- The manager. Window objects are numbered as they are made, and exist as long
as anyone points to them; `bounds` are theirs, `calls` what was called on them. -/
structure WindowManager where
  windows : List Nat
  activeWindow : Option Nat
  focusedWidget : Option Nat
  isInitialized : Bool
  made : Nat
  bounds : Nat → Bounds
  calls : List Call

namespace WindowManager

variable (env : Environment)

def constructed (focusedWidget : Option Nat) (bounds : Nat → Bounds) : WindowManager where
  windows := []
  activeWindow := none
  focusedWidget := focusedWidget
  isInitialized := false
  made := 0
  bounds := bounds
  calls := []

def call (self : WindowManager) (calls : List Call) : WindowManager :=
  { self with calls := self.calls ++ calls }

/-- `initialize()`, where the display server answers `ok`. -/
def initializeDisplay (self : WindowManager) (ok : Bool) : WindowManager :=
  if !self.isInitialized then { self with isInitialized := ok } else self

def shutdown (self : WindowManager) : WindowManager :=
  { self with windows := [], isInitialized := false }

def createWindow (self : WindowManager) (x y width height : Int32) : WindowManager :=
  let window := self.made
  { self with
    windows := self.windows ++ [window]
    made := self.made + 1
    bounds := Function.update self.bounds window ⟨x, y, width, height⟩ }

/-- A window argument is `none` for a null pointer, which is no entry of
`windows`. -/
def destroyWindow (self : WindowManager) (window : Option Nat) : WindowManager :=
  let self := if window = self.activeWindow then { self with activeWindow := none } else self
  match window with
  | none => self
  | some window => { self with windows := self.windows.erase window }

def bringToFront (self : WindowManager) (window : Option Nat) : WindowManager :=
  match window with
  | none => self
  | some window =>
    if window ∈ self.windows then { self with windows := self.windows.erase window ++ [window] } else self

def sendToBack (self : WindowManager) (window : Option Nat) : WindowManager :=
  match window with
  | none => self
  | some window =>
    if window ∈ self.windows then { self with windows := window :: self.windows.erase window } else self

def focusWindow (self : WindowManager) (window : Option Nat) : WindowManager :=
  let self := self.call (self.activeWindow.map Call.unfocus).toList
  let self := { self with activeWindow := window }
  match window with
  | none => self
  | some w => (self.call [.focus w]).bringToFront window

/-- The window that the loops over the reversed list stop at. -/
def windowAt (self : WindowManager) (x y : Int32) : Option Nat :=
  self.windows.reverse.find? fun window => (self.bounds window).contains x y

def handleMouseMove (self : WindowManager) (x y : Int32) : WindowManager :=
  match self.windowAt x y with
  | none => self
  | some window =>
    let localX := x - (self.bounds window).x
    let localY := y - (self.bounds window).y
    self.call [.handleHover window localX localY, .handleMouseMove window localX localY]

def handleMouseButton (self : WindowManager) (button : Int32) (pressed : Bool) (x y : Int32) : WindowManager :=
  match self.windowAt x y with
  | none => self
  | some window =>
    let localX := x - (self.bounds window).x
    let localY := y - (self.bounds window).y
    let self :=
      if pressed then
        let self := self.focusWindow (some window)
        if button = env.MOUSE_LEFT then self.call [.startDrag window localX localY] else self
      else
        if button = env.MOUSE_LEFT then self.call [.endDrag window] else self
    self.call [.handleMouseButton window button pressed localX localY]

def handleKeyEvent (self : WindowManager) (keycode : Int32) (pressed : Bool) : WindowManager :=
  match self.activeWindow with
  | none => self
  | some window =>
    if env.handleGlobalHotkey keycode pressed then self
    else
      self.call (.handleKeyEvent window keycode pressed ::
        (self.focusedWidget.map fun widget => Call.widgetKeyEvent widget keycode pressed).toList)

def handleResize (self : WindowManager) (width height : Int32) : WindowManager :=
  if !self.isInitialized then self
  else
    self.windows.foldl
      (fun self window =>
        { self with
          bounds := Function.update self.bounds window
            ((self.bounds window).intoWorkArea width height) }.call [.handleResize window])
      self

/-- The body of the event loop. -/
def dispatch (self : WindowManager) (event : Event) : WindowManager :=
  match event.type with
  | .MouseMove => self.handleMouseMove event.x event.y
  | .MouseButton => self.handleMouseButton env event.button true event.x event.y
  | .KeyPress | .KeyRelease => self.handleKeyEvent env event.keycode (event.type = .KeyPress)
  | .WindowResize => self.handleResize event.x event.y
  | .WindowClose | .Focus | .Blur => self

/-- `processEvents()`, with the events that the queue of the display server
holds. -/
def processEvents (self : WindowManager) (events : List Event) : WindowManager :=
  if !self.isInitialized then self
  else
    let self := events.foldl (dispatch env) self
    self.call (self.windows.map Call.processEvents)

inductive Op where
  | initializeDisplay (ok : Bool)
  | shutdown
  | createWindow (x y width height : Int32)
  | destroyWindow (window : Option Nat)
  | focusWindow (window : Option Nat)
  | bringToFront (window : Option Nat)
  | sendToBack (window : Option Nat)
  | handleMouseButton (button : Int32) (pressed : Bool) (x y : Int32)
  | processEvents (events : List Event)
  | setBounds (window : Nat) (bounds : Bounds)

/-- One call. In between, anyone may move a window that they point to. -/
def step (self : WindowManager) : Op → Option WindowManager
  | .initializeDisplay ok => some (self.initializeDisplay ok)
  | .shutdown => some self.shutdown
  | .createWindow x y width height => some (self.createWindow x y width height)
  | .destroyWindow window => some (self.destroyWindow window)
  | .focusWindow window => some (self.focusWindow window)
  | .bringToFront window => some (self.bringToFront window)
  | .sendToBack window => some (self.sendToBack window)
  | .handleMouseButton button pressed x y => some (self.handleMouseButton env button pressed x y)
  | .processEvents events => some (self.processEvents env events)
  | .setBounds window bounds => some { self with bounds := Function.update self.bounds window bounds }

end WindowManager

end UI
