import Mathlib.Algebra.Order.Field.Rat
import KernelcModerne.Boot.Bootloader
import KernelcModerne.Boot.PciProbe

open Throwing

namespace Kernel

/-- The animation's data; times are in seconds. -/
structure BootScreen where
  animationProgress_ : ℚ := 0
  startTime_ : ℚ

namespace BootScreen

def ANIMATION_DURATION : ℚ := 8

/-- `update()` at the time `now`, where `round` takes a number to a `float`. -/
def update (self : BootScreen) (round : ℚ → ℚ) (now : ℚ) : BootScreen :=
  let elapsed := round (now - self.startTime_)
  { self with animationProgress_ := min (round (elapsed / ANIMATION_DURATION)) 1 }

def isComplete (self : BootScreen) : Bool := self.animationProgress_ ≥ 1

end BootScreen

inductive Event where
  | Closed
  | other

/-- The variables of `main`. -/
structure Main where
  bootLoader : Bootloader
  isOpen : Bool
  bootScreen : BootScreen

namespace Main

/-- The loop over the events of the window. -/
def pollEvents (self : Main) (events : List Event) : Main :=
  events.foldl (fun self event => match event with
    | .Closed => { self with isOpen := false }
    | .other => self) self

/-- One iteration of the event loop, where the loop goes on: the events that are
polled and the time of the update. -/
def iterate (round : ℚ → ℚ) (self : Main) (input : List Event × ℚ) : Option Main :=
  if self.isOpen && !self.bootLoader.isBootComplete then
    let polled := self.pollEvents input.1
    some { polled with bootScreen := polled.bootScreen.update round input.2 }
  else none

/-- `main` after its loop. -/
def finish (self : Main) : BootM Unit := do
  if self.bootLoader.isBootComplete then
    let _ ← Bootloader.startKernel

/-- What the boot finds on a machine. The probe returns only where its loops end
on the configuration space: otherwise it goes on, or there is no memory left for
its list. -/
structure Machine where
  env : Boot.Environment
  pciConfigRead : PciProbe.ConfigSpace
  probe_ends : env.probe = .ok () →
    ∃ fuel devices, PciProbe.probeHardwareInterfaces pciConfigRead fuel [] = some devices

/-- The states in which `main` tests the condition of its event loop, for any
events and times: the loop is entered once `initialize` has answered true. -/
inductive InLoop (machine : Machine) (round : ℚ → ℚ) : Main → Prop where
  | entered {before bootLoader : Bootloader} (startTime : ℚ)
      (hinit : (Bootloader.initializeBootloader machine.env).runAt before = (.ok true, bootLoader)) :
      InLoop machine round ⟨bootLoader, true, { startTime_ := startTime }⟩
  | iterated {self after : Main} {input : List Event × ℚ} (hself : InLoop machine round self)
      (hstep : iterate round self input = some after) : InLoop machine round after

/-- Once the boot screen is complete, the boot is, the loop ends and `main` starts
the kernel. -/
def CompletesBoot (round : ℚ → ℚ) (self : Main) : Prop :=
  self.bootScreen.isComplete = true →
    self.bootLoader.isBootComplete = true ∧ (∀ input, iterate round self input = none) ∧
      (self.finish.runAt self.bootLoader).2.bootLog = self.bootLoader.bootLog ++ ["Starting kernel"]

/-- No run of `initialize` answers true. -/
def NeverInitialized (machine : Machine) : Prop :=
  ∀ before, ((Bootloader.initializeBootloader machine.env).runAt before).1 ≠ .ok true

/-- The boot is completed in every state of the loop. -/
def AlwaysCompletesBoot (machine : Machine) (round : ℚ → ℚ) : Prop :=
  ∀ self, InLoop machine round self → CompletesBoot round self

end Main

namespace Bootloader

theorem catchAll_returns {Q : Bool → Bootloader → Prop} {m : BootM Bool} (h : Returns Q m)
    (hfalse : ∀ s, Q false s) (report : String) : Returns Q (catchAll report m) := by
  refine h.tryCatch fun stop => ?_
  cases stop with
  | exception e => exact .bind fun _ => .pure hfalse
  | forever => exact .throw _

/-- What answers true has had the probe behind it. -/
def Probed (env : Boot.Environment) (good : Bool) (_ : Bootloader) : Prop :=
  good = true → env.probe = .ok ()

theorem probed_false (env : Boot.Environment) (self : Bootloader) : Probed env false self := nofun

theorem detectHardware_returns (env : Boot.Environment) : Returns (Probed env) (detectHardware env) := by
  refine .bind fun _ => catchAll_returns ?_ (probed_false env) _
  refine .bind fun _ => .bind fun _ => .call_bind fun _ hprobe => ?_
  exact fun _ _ _ _ _ => hprobe

theorem initializeBootloader_returns (env : Boot.Environment) :
    Returns (Probed env) (initializeBootloader env) := by
  refine catchAll_returns (.bind fun _ => .bind fun _ => .bind fun found => ?_) (probed_false env) _
  split
  · exact .bind fun _ => .pure (probed_false env)
  · exact .bind fun _ => detectHardware_returns env

end Bootloader

namespace Main

/-- The bus loop of the probe does not end. -/
theorem Machine.probe_ne_ok (machine : Machine) : machine.env.probe ≠ .ok () := by
  intro hprobe
  obtain ⟨fuel, devices, hends⟩ := machine.probe_ends hprobe
  rw [PciProbe.probeHardwareInterfaces_eq_none] at hends
  cases hends

theorem neverInitialized (machine : Machine) : NeverInitialized machine := by
  intro before hinit
  have hreturns := Bootloader.initializeBootloader_returns machine.env before true
    ((Bootloader.initializeBootloader machine.env).runAt before).2 (Prod.ext hinit rfl)
  exact machine.probe_ne_ok (hreturns rfl)

/-- The loop is not entered. -/
theorem not_inLoop (machine : Machine) (round : ℚ → ℚ) (self : Main) : ¬ InLoop machine round self := by
  intro h
  induction h with
  | entered startTime hinit => exact neverInitialized machine _ (congrArg Prod.fst hinit)
  | iterated hself hstep ih => exact ih

end Main

end Kernel
