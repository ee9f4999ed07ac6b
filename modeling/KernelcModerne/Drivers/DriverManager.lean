import Mathlib.Data.List.AList
import KernelcModerne.Lib.AListTotal
import KernelcModerne.Lib.Transition

open Transition

namespace Kernel

/-- What happens to a driver object: its `initialize()` returns, its
`shutdown()` is called, its destructor runs. -/
inductive DriverEvent where
  | initialized (driver : Nat) (ok : Bool)
  | shutdown (driver : Nat)
  | destroyed (driver : Nat)
  deriving DecidableEq

def DriverEvent.driver : DriverEvent → Nat
  | .initialized driver _ => driver
  | .shutdown driver => driver
  | .destroyed driver => driver

/-- The manager. Driver objects are numbered as they are made; `events` records
what happens to them, in order. -/
structure DriverManager where
  drivers : AList fun _ : String => Nat
  made : Nat
  events : List DriverEvent

namespace DriverManager

def constructed : DriverManager where
  drivers := ∅
  made := 0
  events := []

/-- `registerDriver`, for a driver that answers `name` to `getName()` and
`initializes` to `initialize()`. A driver that was stored under the name is
destroyed by the assignment. -/
def registerDriver (self : DriverManager) (name : String) (initializes : Bool) : DriverManager :=
  let driver := self.made
  if !initializes then
    { self with
      made := driver + 1
      events := self.events ++ [.initialized driver false, .destroyed driver] }
  else
    { drivers := self.drivers.insert name driver
      made := driver + 1
      events := self.events ++ .initialized driver true ::
        ((self.drivers.lookup name).map DriverEvent.destroyed).toList }

/-- `unregisterDriver`, where `throws` says whether the driver's `shutdown()`
throws. -/
def unregisterDriver (self : DriverManager) (name : String) (throws : Bool) : DriverManager :=
  match self.drivers.lookup name with
  | none => self
  | some driver =>
    if throws then { self with events := self.events ++ [.shutdown driver] }
    else
      { self with
        drivers := self.drivers.erase name
        events := self.events ++ [.shutdown driver, .destroyed driver] }

/-- The drivers in the map. -/
def registered (self : DriverManager) : List Nat := self.drivers.entries.map Sigma.snd

/-- `shutdown`: every driver is shut down, then the map is cleared. What a
`shutdown()` throws is caught for each driver. -/
def shutdown (self : DriverManager) : DriverManager :=
  { self with
    drivers := ∅
    events := self.events ++ self.registered.map .shutdown ++ self.registered.map .destroyed }

/-- A driver whose `shutdown()` throws stays in the map, shut down. -/
theorem unregisterDriver_throws {self : DriverManager} {name : String} {driver : Nat}
    (h : self.drivers.lookup name = some driver) :
    (self.unregisterDriver name true).registered = self.registered ∧
      DriverEvent.shutdown driver ∈ (self.unregisterDriver name true).events := by
  simp [unregisterDriver, h, registered]

inductive Op where
  | registerDriver (name : String) (initializes : Bool)
  | unregisterDriver (name : String)
  | shutdown

/-- One call, with drivers whose `shutdown()` does not throw. -/
def step (self : DriverManager) : Op → Option DriverManager
  | .registerDriver name initializes => some (self.registerDriver name initializes)
  | .unregisterDriver name => some (self.unregisterDriver name false)
  | .shutdown => some self.shutdown

/-- A driver that was initialized has not been shut down while it is in the
map, and once, before it was destroyed, when it is no longer. -/
def ShutDownOnce (self : DriverManager) : Prop :=
  ∀ driver, DriverEvent.initialized driver true ∈ self.events →
    if driver ∈ self.registered then .shutdown driver ∉ self.events
    else self.events.count (.shutdown driver) = 1 ∧
      [.shutdown driver, .destroyed driver].Sublist self.events

/-- No driver is stored under a name that has one. -/
def KeepsNames (self : DriverManager) : Op → Prop
  | .registerDriver name initializes => initializes = true → name ∉ self.drivers
  | _ => True

/-- What happened to one driver. -/
def eventsOf (self : DriverManager) (driver : Nat) : List DriverEvent :=
  self.events.filter fun event => event.driver = driver

theorem mem_eventsOf {self : DriverManager} {event : DriverEvent} :
    event ∈ self.eventsOf event.driver ↔ event ∈ self.events := by
  simp [eventsOf]

theorem count_eventsOf (self : DriverManager) (event : DriverEvent) :
    (self.eventsOf event.driver).count event = self.events.count event :=
  List.count_filter (by simp)

theorem eventsOf_eq_nil {self : DriverManager} {driver : Nat} (h : ∀ event ∈ self.events, event.driver ≠ driver) :
    self.eventsOf driver = [] := by
  rw [eventsOf, List.filter_eq_nil_iff]
  intro event hevent
  simpa using h event hevent

/-- The events of one driver among one event for each of several. -/
theorem filter_map_driver {event : Nat → DriverEvent} (hevent : ∀ driver, (event driver).driver = driver)
    {drivers : List Nat} (hnodup : drivers.Nodup) (driver : Nat) :
    (drivers.map event).filter (fun e => e.driver = driver) = if driver ∈ drivers then [event driver] else [] := by
  have hsame : (fun e => decide (e.driver = driver)) ∘ event = fun d => decide (d = driver) := by
    funext d
    simp [hevent]
  rw [List.filter_map, hsame, List.filter_eq]
  split
  · next hmem => rw [List.count_eq_one_of_mem hnodup hmem, List.replicate_one, List.map_singleton]
  · next hmem => rw [List.count_eq_zero_of_not_mem hmem, List.replicate_zero, List.map_nil]

/-- Every driver is in one place of the map, and its events are those of its
life up to now. -/
structure Tracked (manager : DriverManager) : Prop where
  nodup : manager.registered.Nodup
  made : ∀ event ∈ manager.events, event.driver < manager.made
  inMap : ∀ driver ∈ manager.registered, manager.eventsOf driver = [.initialized driver true]
  gone : ∀ driver, DriverEvent.initialized driver true ∈ manager.events → driver ∉ manager.registered →
    manager.eventsOf driver = [.initialized driver true, .shutdown driver, .destroyed driver]

variable {manager after : DriverManager}

theorem constructed_tracked : constructed.Tracked where
  nodup := .nil
  made := by simp [constructed]
  inMap := by simp [constructed, registered]
  gone := by simp [constructed]

theorem Tracked.not_shutdown (h : manager.Tracked) {driver : Nat} (hmem : driver ∈ manager.registered) :
    .shutdown driver ∉ manager.events := by
  intro hshutdown
  have hevent : .shutdown driver ∈ manager.eventsOf driver := mem_eventsOf.mpr hshutdown
  rw [h.inMap driver hmem] at hevent
  simp at hevent

theorem Tracked.shutDownOnce (h : manager.Tracked) : manager.ShutDownOnce := by
  intro driver hinitialized
  split
  · next hmem => exact h.not_shutdown hmem
  · next hmem =>
    have hevents := h.gone driver hinitialized hmem
    have hcount : (manager.eventsOf driver).count (.shutdown driver) = manager.events.count (.shutdown driver) :=
      manager.count_eventsOf (.shutdown driver)
    have hsub : (manager.eventsOf driver).Sublist manager.events := List.filter_sublist
    rw [hevents] at hcount hsub
    exact ⟨hcount.symm.trans (by simp), (List.sublist_cons_self _ _).trans hsub⟩

theorem Tracked.initialized_mem (h : manager.Tracked) {driver : Nat} (hmem : driver ∈ manager.registered) :
    .initialized driver true ∈ manager.events := by
  have hevent : .initialized driver true ∈ manager.eventsOf driver := by
    rw [h.inMap driver hmem]
    exact List.mem_singleton_self _
  exact mem_eventsOf.mp hevent

theorem Tracked.lt_made (h : manager.Tracked) {driver : Nat} (hmem : driver ∈ manager.registered) :
    driver < manager.made :=
  h.made _ (h.initialized_mem hmem)

/-- A driver that is made has no events yet. -/
theorem Tracked.eventsOf_made (h : manager.Tracked) : manager.eventsOf manager.made = [] :=
  eventsOf_eq_nil fun event hevent => (h.made event hevent).ne

/-- Further events, of drivers that have been made by then. -/
theorem Tracked.made_append (h : manager.Tracked) {made : Nat} (hle : manager.made ≤ made)
    {added : List DriverEvent} (hadded : ∀ event ∈ added, event.driver < made) :
    ∀ event ∈ manager.events ++ added, event.driver < made := by
  intro event hevent
  cases List.mem_append.mp hevent with
  | inl hold => exact (h.made event hold).trans_le hle
  | inr hnew => exact hadded event hnew

theorem registered_insert {name : String} (h : name ∉ manager.drivers) (driver : Nat) :
    (manager.drivers.insert name driver).entries.map Sigma.snd = driver :: manager.registered := by
  rw [AList.entries_insert_of_notMem h, List.map_cons]
  rfl

/-- The driver stored under a name, and the others. -/
theorem registered_perm {name : String} {driver : Nat} (h : manager.drivers.lookup name = some driver) :
    manager.registered.Perm (driver :: (manager.drivers.erase name).entries.map Sigma.snd) :=
  (AList.entries_perm_of_lookup h).map fun entry : Sigma fun _ : String => Nat => entry.2

theorem Tracked.register_failed (h : manager.Tracked) (name : String) :
    (manager.registerDriver name false).Tracked := by
  have hafter : (manager.registerDriver name false).events =
      manager.events ++ [.initialized manager.made false, .destroyed manager.made] := by
    simp [registerDriver]
  have hevents (driver : Nat) (hold : driver ≠ manager.made) :
      (manager.registerDriver name false).eventsOf driver = manager.eventsOf driver := by
    simp [eventsOf, hafter, DriverEvent.driver, Ne.symm hold]
  have hmade : ∀ driver ∈ manager.registered, driver ≠ manager.made := fun driver hmem => (h.lt_made hmem).ne
  refine ⟨h.nodup, ?_, ?_, ?_⟩
  · rw [hafter]
    exact h.made_append (Nat.le_succ _) (by simp [DriverEvent.driver])
  · intro driver hmem
    rw [hevents driver (hmade driver hmem)]
    exact h.inMap driver hmem
  · intro driver hinitialized hmem
    have hold : .initialized driver true ∈ manager.events := by simpa [hafter] using hinitialized
    rw [hevents driver (h.made _ hold).ne]
    exact h.gone driver hold hmem

theorem Tracked.register (h : manager.Tracked) {name : String} (hname : name ∉ manager.drivers) :
    (manager.registerDriver name true).Tracked := by
  have hlookup : manager.drivers.lookup name = none := AList.lookup_eq_none.mpr hname
  have hafter : (manager.registerDriver name true).events =
      manager.events ++ [.initialized manager.made true] := by
    simp [registerDriver, hlookup]
  have hregistered : (manager.registerDriver name true).registered = manager.made :: manager.registered :=
    registered_insert hname _
  have hevents (driver : Nat) (hold : driver ≠ manager.made) :
      (manager.registerDriver name true).eventsOf driver = manager.eventsOf driver := by
    simp [eventsOf, hafter, DriverEvent.driver, Ne.symm hold]
  have hself : (manager.registerDriver name true).eventsOf manager.made = [.initialized manager.made true] := by
    have hnone := h.eventsOf_made
    rw [eventsOf] at hnone
    rw [eventsOf, hafter, List.filter_append, hnone]
    simp [DriverEvent.driver]
  constructor
  · rw [hregistered, List.nodup_cons]
    exact ⟨fun hmem => (h.lt_made hmem).ne rfl, h.nodup⟩
  · rw [hafter]
    exact h.made_append (Nat.le_succ _) (by simp [DriverEvent.driver])
  · rw [hregistered]
    refine List.forall_mem_cons.mpr ⟨hself, fun driver hmem => ?_⟩
    rw [hevents driver (h.lt_made hmem).ne]
    exact h.inMap driver hmem
  · intro driver hinitialized hmem
    rw [hregistered, List.mem_cons, not_or] at hmem
    have hold : .initialized driver true ∈ manager.events := by
      rw [hafter, List.mem_append, List.mem_singleton] at hinitialized
      exact hinitialized.resolve_right fun heq => hmem.1 (DriverEvent.initialized.inj heq).1
    rw [hevents driver hmem.1]
    exact h.gone driver hold hmem.2

theorem Tracked.unregister (h : manager.Tracked) (name : String) :
    (manager.unregisterDriver name false).Tracked := by
  cases hlookup : manager.drivers.lookup name with
  | none => simpa only [unregisterDriver, hlookup] using h
  | some removed =>
    have hafter : manager.unregisterDriver name false =
        { manager with
          drivers := manager.drivers.erase name
          events := manager.events ++ [.shutdown removed, .destroyed removed] } := by
      simp [unregisterDriver, hlookup]
    have hperm : manager.registered.Perm (removed :: (manager.unregisterDriver name false).registered) := by
      rw [hafter]
      exact registered_perm hlookup
    have hnodup := List.nodup_cons.mp (hperm.nodup_iff.mp h.nodup)
    have hmem := hperm.mem_iff (a := removed) |>.mpr List.mem_cons_self
    have hevents (driver : Nat) (hother : driver ≠ removed) :
        (manager.unregisterDriver name false).eventsOf driver = manager.eventsOf driver := by
      simp [hafter, eventsOf, DriverEvent.driver, Ne.symm hother]
    have hself : (manager.unregisterDriver name false).eventsOf removed =
        [.initialized removed true, .shutdown removed, .destroyed removed] := by
      have hold := h.inMap removed hmem
      rw [eventsOf] at hold
      rw [hafter, eventsOf, List.filter_append, hold]
      simp [DriverEvent.driver]
    have hinitialized (driver : Nat) : .initialized driver true ∈ (manager.unregisterDriver name false).events ↔
        .initialized driver true ∈ manager.events := by
      simp [hafter]
    refine ⟨hnodup.2, ?_, ?_, ?_⟩
    · rw [hafter]
      exact h.made_append le_rfl (by simp [DriverEvent.driver, h.lt_made hmem])
    · intro driver hdriver
      have hother : driver ≠ removed := fun heq => hnodup.1 (heq ▸ hdriver)
      rw [hevents driver hother]
      exact h.inMap driver (hperm.mem_iff.mpr (List.mem_cons_of_mem _ hdriver))
    · intro driver hbefore hdriver
      by_cases hother : driver = removed
      · rw [hother, hself]
      · rw [hevents driver hother]
        refine h.gone driver ((hinitialized driver).mp hbefore) fun hold => ?_
        exact hdriver ((List.mem_cons.mp (hperm.mem_iff.mp hold)).resolve_left hother)

theorem Tracked.shutdown (h : manager.Tracked) : manager.shutdown.Tracked := by
  have hnone (driver : Nat) : driver ∉ manager.shutdown.registered := List.not_mem_nil
  have hevents (driver : Nat) : manager.shutdown.eventsOf driver = manager.eventsOf driver ++
      (if driver ∈ manager.registered then [.shutdown driver] else []) ++
        if driver ∈ manager.registered then [.destroyed driver] else [] := by
    rw [eventsOf, DriverManager.shutdown, List.filter_append, List.filter_append,
      filter_map_driver (fun _ => rfl) h.nodup, filter_map_driver (fun _ => rfl) h.nodup, ← eventsOf]
  refine ⟨.nil, ?_, fun driver hmem => absurd hmem (hnone driver), ?_⟩
  · rw [DriverManager.shutdown, List.append_assoc]
    refine h.made_append le_rfl fun event hevent => ?_
    cases List.mem_append.mp hevent with
    | inl hshutdown =>
      obtain ⟨driver, hmem, rfl⟩ := List.mem_map.mp hshutdown
      exact h.lt_made hmem
    | inr hdestroyed =>
      obtain ⟨driver, hmem, rfl⟩ := List.mem_map.mp hdestroyed
      exact h.lt_made hmem
  · intro driver hinitialized _
    have hold : .initialized driver true ∈ manager.events := by
      simpa [DriverManager.shutdown] using hinitialized
    rw [hevents]
    by_cases hmem : driver ∈ manager.registered
    · simp [hmem, h.inMap driver hmem]
    · simp [hmem, h.gone driver hold hmem]

theorem Tracked.step (h : manager.Tracked) {op : Op} (hstep : manager.step op = some after)
    (hkeeps : manager.KeepsNames op) : after.Tracked := by
  cases op with
  | registerDriver name initializes =>
    obtain rfl := Option.some.inj hstep
    cases initializes with
    | false => exact h.register_failed name
    | true => exact h.register (hkeeps rfl)
  | unregisterDriver name =>
    obtain rfl := Option.some.inj hstep
    exact h.unregister name
  | shutdown =>
    obtain rfl := Option.some.inj hstep
    exact h.shutdown

/-- A driver whose name another one takes is destroyed without a shutdown. -/
theorem Tracked.not_shutDownOnce (h : manager.Tracked) {name : String} (hname : name ∈ manager.drivers) :
    ¬ (manager.registerDriver name true).ShutDownOnce := by
  intro hshutdown
  obtain ⟨replaced, hlookup⟩ := AList.exists_lookup_of_mem hname
  have hperm := registered_perm hlookup
  have hnodup := List.nodup_cons.mp (hperm.nodup_iff.mp h.nodup)
  have hmem := hperm.mem_iff.mpr List.mem_cons_self
  have hafter : (manager.registerDriver name true).events =
      manager.events ++ [.initialized manager.made true, .destroyed replaced] := by
    simp [registerDriver, hlookup]
  have hgone : replaced ∉ (manager.registerDriver name true).registered := by
    have hregistered : (manager.registerDriver name true).registered =
        manager.made :: (manager.drivers.erase name).entries.map Sigma.snd := rfl
    rw [hregistered, List.mem_cons, not_or]
    exact ⟨(h.lt_made hmem).ne, hnodup.1⟩
  have honce := hshutdown replaced (hafter ▸ List.mem_append_left _ (h.initialized_mem hmem))
  rw [if_neg hgone, hafter, List.count_append, List.count_eq_zero_of_not_mem (h.not_shutdown hmem)] at honce
  simp at honce

theorem Tracked.shutDownOnce_iff (h : manager.Tracked) {op : Op} (hstep : manager.step op = some after) :
    after.ShutDownOnce ↔ manager.KeepsNames op := by
  constructor
  · intro honce
    cases op with
    | unregisterDriver name => trivial
    | shutdown => trivial
    | registerDriver name initializes =>
      obtain rfl := Option.some.inj hstep
      intro htrue hname
      subst htrue
      exact h.not_shutDownOnce hname honce
  · intro hkeeps
    exact (h.step hstep hkeeps).shutDownOnce

/-- The drivers are shut down once each in every state of a run exactly when no
driver is registered under the name of another that is still in the map. -/
theorem drivers_shut_down_once_iff (ops : List Op) :
    Always step ShutDownOnce constructed ops ↔ Guarded step KeepsNames constructed ops := by
  have hiff : Along step (fun _ _ after => after.ShutDownOnce) constructed ops ↔
      Guarded step KeepsNames constructed ops :=
    along_iff_along Tracked
      (fun manager op after h (hstep : manager.step op = some after) => h.shutDownOnce_iff hstep)
      (fun manager op after h (hstep : manager.step op = some after) honce =>
        h.step hstep ((h.shutDownOnce_iff hstep).mp honce)) ops constructed_tracked
  constructor
  · intro hall
    exact hiff.mp hall.2
  · intro hkeeps
    exact ⟨constructed_tracked.shutDownOnce, hiff.mpr hkeeps⟩

/-- Two drivers of one name: the first is destroyed while it runs. -/
theorem replaced_driver_not_shut_down :
    ¬ Always step ShutDownOnce constructed
      [.registerDriver "NetworkDriver" true, .registerDriver "NetworkDriver" true] := by
  rintro ⟨_, h⟩
  obtain ⟨_, h⟩ := h _ rfl
  obtain ⟨honce, _⟩ := h _ rfl
  have hfirst := honce 0 (by decide)
  rw [if_neg (by decide)] at hfirst
  exact absurd hfirst.1 (by decide)

end DriverManager

end Kernel
