import Mathlib.Logic.Function.Basic

namespace WriteLog

/-- The bytes of a file, by their positions. -/
abbrev Bytes (β : Type*) := Nat → Option β

/-- A write of `data` to a file, from the position `offset` on. -/
structure Write (κ β : Type*) where
  path : κ
  data : List β
  offset : Nat

variable {κ β : Type*}

/-- `g` has every byte of `f`. -/
def Within (f g : Bytes β) : Prop := ∀ position byte, f position = some byte → g position = some byte

theorem Within.refl (f : Bytes β) : Within f f := fun _ _ h => h

theorem Within.trans {f g h : Bytes β} (hfg : Within f g) (hgh : Within g h) : Within f h :=
  fun position byte hf => hgh position byte (hfg position byte hf)

namespace Write

/-- The byte that the write has for a position. -/
def byteAt (w : Write κ β) (position : Nat) : Option β :=
  if w.offset ≤ position then w.data[position - w.offset]? else none

/-- The file after the write. -/
def onto (w : Write κ β) (file : Bytes β) : Bytes β := fun position => (w.byteAt position).or (file position)

theorem onto_mono (w : Write κ β) {f g : Bytes β} (h : Within f g) : Within (w.onto f) (w.onto g) := by
  intro position byte honto
  unfold onto at *
  cases hbyte : w.byteAt position with
  | some written => rwa [hbyte] at honto
  | none =>
    rw [hbyte, Option.none_or] at honto
    rw [Option.none_or]
    exact h position byte honto

variable [DecidableEq κ]

/-- All the files after the write. -/
def apply (w : Write κ β) (files : κ → Bytes β) : κ → Bytes β :=
  Function.update files w.path (w.onto (files w.path))

/-- The files without the positions of the write. -/
def forget (w : Write κ β) (files : κ → Bytes β) : κ → Bytes β :=
  Function.update files w.path fun position =>
    if (w.byteAt position).isSome then none else files w.path position

theorem apply_path (w : Write κ β) (files : κ → Bytes β) : w.apply files w.path = w.onto (files w.path) :=
  Function.update_self _ _ _

theorem apply_of_ne (w : Write κ β) (files : κ → Bytes β) {path : κ} (h : path ≠ w.path) :
    w.apply files path = files path :=
  Function.update_of_ne h _ _

theorem apply_mono (w : Write κ β) {files files' : κ → Bytes β} (h : ∀ path, Within (files path) (files' path))
    (path : κ) : Within (w.apply files path) (w.apply files' path) := by
  by_cases hpath : path = w.path
  · subst hpath
    rw [apply_path, apply_path]
    exact w.onto_mono (h _)
  · rw [apply_of_ne w files hpath, apply_of_ne w files' hpath]
    exact h path

/-- A write leaves the positions that are not its own. -/
theorem forget_within_apply (w : Write κ β) {files files' : κ → Bytes β}
    (h : ∀ path, Within (files path) (files' path)) (path : κ) :
    Within (w.forget files path) (w.apply files' path) := by
  by_cases hpath : path = w.path
  · subst hpath
    intro position byte hbyte
    rw [forget, Function.update_self] at hbyte
    rw [apply_path, onto]
    cases hwritten : w.byteAt position with
    | some written => simp [hwritten] at hbyte
    | none =>
      rw [hwritten] at hbyte
      rw [Option.none_or]
      exact h _ position byte hbyte
  · rw [forget, Function.update_of_ne hpath, apply_of_ne w files' hpath]
    exact h path

theorem apply_eq_or (w : Write κ β) (files : κ → Bytes β) (path : κ) (position : Nat) :
    w.apply files path position = (w.apply (fun _ _ => none) path position).or (files path position) := by
  by_cases hpath : path = w.path
  · subst hpath
    rw [apply_path, apply_path, onto, onto, Option.or_none]
  · rw [apply_of_ne w files hpath, apply_of_ne w _ hpath, Option.none_or]

end Write

variable [DecidableEq κ]

/-- The files after the writes of a log. -/
def overlay (log : List (Write κ β)) (files : κ → Bytes β) : κ → Bytes β :=
  log.foldl (fun files w => w.apply files) files

@[simp] theorem overlay_nil (files : κ → Bytes β) : overlay [] files = files := rfl

theorem overlay_cons (w : Write κ β) (log : List (Write κ β)) (files : κ → Bytes β) :
    overlay (w :: log) files = overlay log (w.apply files) := rfl

theorem overlay_append (first second : List (Write κ β)) (files : κ → Bytes β) :
    overlay (first ++ second) files = overlay second (overlay first files) :=
  List.foldl_append

theorem overlay_concat (log : List (Write κ β)) (w : Write κ β) (files : κ → Bytes β) :
    overlay (log ++ [w]) files = w.apply (overlay log files) :=
  overlay_append log [w] files

theorem overlay_mono (log : List (Write κ β)) {files files' : κ → Bytes β}
    (h : ∀ path, Within (files path) (files' path)) (path : κ) :
    Within (overlay log files path) (overlay log files' path) := by
  induction log generalizing files files' with
  | nil => exact h path
  | cons w log ih => exact ih (w.apply_mono h)

/-- A position has the byte that the log has for it, if it has one. -/
theorem overlay_eq_or (log : List (Write κ β)) (files : κ → Bytes β) (path : κ) (position : Nat) :
    overlay log files path position =
      (overlay log (fun _ _ => none) path position).or (files path position) := by
  induction log generalizing files with
  | nil => rfl
  | cons w log ih =>
    rw [overlay_cons, overlay_cons, ih (w.apply files), ih (w.apply fun _ _ => none),
      w.apply_eq_or files, Option.or_assoc]

/-- Writes that a log starts with add nothing when made before it. -/
theorem overlay_overlay_append (first second : List (Write κ β)) (files : κ → Bytes β) :
    overlay (first ++ second) (overlay first files) = overlay (first ++ second) files := by
  have htwice (a b : Option β) : a.or (a.or b) = a.or b := by
    rw [← Option.or_assoc, Option.or_self]
  funext path position
  rw [overlay_append, overlay_append, overlay_eq_or second, overlay_eq_or second (overlay first files),
    overlay_eq_or first (overlay first files), overlay_eq_or first files, htwice]

end WriteLog
