import Mathlib.Data.List.AList
import KernelcModerne.Lib.Transition

open Transition

namespace Kernel.Memory

structure Resource where
  data : Nat
  size : Nat
  type : String
  isLocked : Bool

structure GraphicsResourceManager where
  resources : AList fun _ : String => Resource

namespace GraphicsResourceManager

/-- `malloc` is the answer of `_aligned_malloc`, 0 for null. -/
def AllocateResource (self : GraphicsResourceManager) (name : String) (size : Nat) (type : String)
    (malloc : Nat) : GraphicsResourceManager × Bool :=
  if malloc = 0 then (self, false)
  else
    ({ resources := self.resources.insert name { data := malloc, size, type, isLocked := false } }, true)

/-- The data pointer, 0 for null. -/
def LockResource (self : GraphicsResourceManager) (name : String) : GraphicsResourceManager × Nat :=
  match self.resources.lookup name with
  | some resource =>
    ({ resources := self.resources.insert name { resource with isLocked := true } }, resource.data)
  | none => (self, 0)

def UnlockResource (self : GraphicsResourceManager) (name : String) : GraphicsResourceManager :=
  match self.resources.lookup name with
  | some resource => { resources := self.resources.insert name { resource with isLocked := false } }
  | none => self

def AllocateGraphicsResource (self : GraphicsResourceManager) (name : String) (size malloc : Nat) :
    GraphicsResourceManager × Bool := self.AllocateResource name size "graphics" malloc

def LockGraphicsResource (self : GraphicsResourceManager) (name : String) : GraphicsResourceManager × Nat :=
  self.LockResource name

def UnlockGraphicsResource (self : GraphicsResourceManager) (name : String) : GraphicsResourceManager :=
  self.UnlockResource name

inductive Op where
  | allocate (name : String) (size malloc : UInt64)
  | lock (name : String)
  | unlock (name : String)

/-- The resources and the locks that are held: the names that were locked and
not unlocked since, with the pointers that were returned. -/
structure Client where
  manager : GraphicsResourceManager
  locks : List (String × Nat)

namespace Client

def constructed : Client where
  manager := { resources := ∅ }
  locks := []

def step (client : Client) : Op → Option Client
  | .allocate name size malloc =>
    some
      { client with
        manager := (client.manager.AllocateGraphicsResource name size.toNat malloc.toNat).1 }
  | .lock name =>
    let (manager, data) := client.manager.LockGraphicsResource name
    some { manager, locks := if data ≠ 0 then (name, data) :: client.locks else client.locks }
  | .unlock name =>
    some
      { manager := client.manager.UnlockGraphicsResource name
        locks := client.locks.filter fun lock => lock.1 ≠ name }

/-- What a lock is held on stays locked and keeps its data. -/
def StaysLocked (client : Client) : Prop :=
  ∀ name data, (name, data) ∈ client.locks → ∃ resource,
    client.manager.resources.lookup name = some resource ∧ resource.isLocked = true ∧ resource.data = data

/-- No resource is allocated under the name of one that is locked. -/
def KeepsLocked (client : Client) : Op → Prop
  | .allocate name _ malloc => malloc.toNat ≠ 0 → ∀ resource,
    client.manager.resources.lookup name = some resource → resource.isLocked = false
  | _ => True

/-- A locked resource is one that a lock is held on, and none has null data. -/
structure Tracked (client : Client) : Prop where
  held : ∀ name resource, client.manager.resources.lookup name = some resource →
    resource.isLocked = true → (name, resource.data) ∈ client.locks
  data : ∀ name resource, client.manager.resources.lookup name = some resource → resource.data ≠ 0

variable {client after : Client}

theorem constructed_tracked : constructed.Tracked where
  held _ _ h := by cases h
  data _ _ h := by cases h

/-- An unsuccessful allocation changes nothing. -/
theorem step_allocate_null {name : String} {size malloc : UInt64} (hmalloc : malloc.toNat = 0)
    (hstep : client.step (.allocate name size malloc) = some after) : after = client := by
  obtain rfl := Option.some.inj hstep
  simp only [AllocateGraphicsResource, AllocateResource, if_pos hmalloc]

theorem step_allocate_some {name : String} {size malloc : UInt64} (hmalloc : malloc.toNat ≠ 0)
    (hstep : client.step (.allocate name size malloc) = some after) :
    after.locks = client.locks ∧ after.manager.resources =
      client.manager.resources.insert name ⟨malloc.toNat, size.toNat, "graphics", false⟩ := by
  obtain rfl := Option.some.inj hstep
  refine ⟨rfl, ?_⟩
  simp only [AllocateGraphicsResource, AllocateResource, if_neg hmalloc]

/-- On a tracked state a lock of a resource that exists marks it and is held. -/
theorem Tracked.step_lock (h : client.Tracked) {name : String} (hstep : client.step (.lock name) = some after) :
    after = client ∨ ∃ resource, client.manager.resources.lookup name = some resource ∧
      after =
        { manager := { resources := client.manager.resources.insert name { resource with isLocked := true } }
          locks := (name, resource.data) :: client.locks } := by
  simp only [Client.step, LockGraphicsResource, LockResource] at hstep
  cases hlookup : client.manager.resources.lookup name with
  | none =>
    simp only [hlookup, ne_eq, not_true_eq_false, if_false, Option.some.injEq] at hstep
    exact .inl hstep.symm
  | some resource =>
    simp only [hlookup, ne_eq, h.data name resource hlookup, not_false_eq_true, if_true,
      Option.some.injEq] at hstep
    exact .inr ⟨resource, rfl, hstep.symm⟩

theorem step_unlock {name : String} (hstep : client.step (.unlock name) = some after) :
    after.locks = client.locks.filter (fun lock => lock.1 ≠ name) ∧
      (∀ other, other ≠ name →
        after.manager.resources.lookup other = client.manager.resources.lookup other) ∧
      after.manager.resources.lookup name =
        (client.manager.resources.lookup name).map fun resource => { resource with isLocked := false } := by
  obtain rfl := Option.some.inj hstep
  refine ⟨rfl, ?_⟩
  simp only [UnlockGraphicsResource, UnlockResource]
  cases hlookup : client.manager.resources.lookup name with
  | none => exact ⟨fun _ _ => rfl, hlookup⟩
  | some resource => exact ⟨fun other hother => AList.lookup_insert_ne hother, AList.lookup_insert _⟩

/-- A call that changes the resource and the locks of one name only. -/
theorem Tracked.of_change (h : client.Tracked) (name : String)
    (hothers : ∀ other, other ≠ name →
      after.manager.resources.lookup other = client.manager.resources.lookup other)
    (hlocks : ∀ lock ∈ client.locks, lock.1 ≠ name → lock ∈ after.locks)
    (hname : ∀ resource, after.manager.resources.lookup name = some resource →
      (resource.isLocked = true → (name, resource.data) ∈ after.locks) ∧ resource.data ≠ 0) : after.Tracked := by
  constructor
  · intro other resource hlookup hmark
    by_cases hother : other = name
    · subst hother
      exact (hname resource hlookup).1 hmark
    · rw [hothers other hother] at hlookup
      exact hlocks _ (h.held other resource hlookup hmark) hother
  · intro other resource hlookup
    by_cases hother : other = name
    · subst hother
      exact (hname resource hlookup).2
    · rw [hothers other hother] at hlookup
      exact h.data other resource hlookup

theorem Tracked.step (h : client.Tracked) {op : Op} (hstep : client.step op = some after) : after.Tracked := by
  cases op with
  | allocate name size malloc =>
    by_cases hmalloc : malloc.toNat = 0
    · exact step_allocate_null hmalloc hstep ▸ h
    · obtain ⟨hlocks, hresources⟩ := step_allocate_some hmalloc hstep
      refine h.of_change name (fun other hother => ?_) (fun lock hlock _ => hlocks ▸ hlock) fun resource hlookup => ?_
      · rw [hresources, AList.lookup_insert_ne hother]
      · rw [hresources, AList.lookup_insert] at hlookup
        obtain rfl := Option.some.inj hlookup
        exact ⟨fun hmark => absurd hmark Bool.false_ne_true, hmalloc⟩
  | lock name =>
    cases h.step_lock hstep with
    | inl hsame => exact hsame ▸ h
    | inr hlocks =>
      obtain ⟨locked, hlocked, rfl⟩ := hlocks
      refine h.of_change name (fun other hother => AList.lookup_insert_ne hother)
        (fun lock hlock _ => List.mem_cons_of_mem _ hlock) fun resource hlookup => ?_
      rw [AList.lookup_insert] at hlookup
      obtain rfl := Option.some.inj hlookup
      exact ⟨fun _ => List.mem_cons_self, h.data name locked hlocked⟩
  | unlock name =>
    obtain ⟨hlocks, hothers, hself⟩ := step_unlock hstep
    refine h.of_change name hothers (fun lock hlock hother => ?_) fun resource hlookup => ?_
    · rw [hlocks]
      exact List.mem_filter.mpr ⟨hlock, decide_eq_true hother⟩
    · rw [hself, Option.map_eq_some_iff] at hlookup
      obtain ⟨before, hbefore, rfl⟩ := hlookup
      exact ⟨fun hmark => absurd hmark Bool.false_ne_true, h.data name before hbefore⟩

theorem StaysLocked.step_lock (hstays : client.StaysLocked) (h : client.Tracked) {name : String}
    (hstep : client.step (.lock name) = some after) : after.StaysLocked := by
  cases h.step_lock hstep with
  | inl hsame => exact hsame ▸ hstays
  | inr hlocks =>
    obtain ⟨locked, hlocked, rfl⟩ := hlocks
    intro other data hmem
    by_cases hother : other = name
    · refine ⟨{ locked with isLocked := true }, hother ▸ AList.lookup_insert _, rfl, ?_⟩
      cases List.mem_cons.mp hmem with
      | inl heq => exact (congrArg Prod.snd heq).symm
      | inr hold =>
        obtain ⟨resource, hlookup, _, hdata⟩ := hstays other data hold
        rw [hother, hlocked] at hlookup
        exact Option.some.inj hlookup ▸ hdata
    · have hold := (List.mem_cons.mp hmem).resolve_left fun heq => hother (congrArg Prod.fst heq)
      obtain ⟨resource, hlookup, hresource⟩ := hstays other data hold
      exact ⟨resource, (AList.lookup_insert_ne hother).trans hlookup, hresource⟩

theorem StaysLocked.step_unlock (hstays : client.StaysLocked) {name : String}
    (hstep : client.step (.unlock name) = some after) : after.StaysLocked := by
  obtain ⟨hlocks, hothers, _⟩ := Client.step_unlock hstep
  intro other data hmem
  rw [hlocks, List.mem_filter] at hmem
  obtain ⟨resource, hlookup, hresource⟩ := hstays other data hmem.1
  exact ⟨resource, (hothers other (of_decide_eq_true hmem.2)).trans hlookup, hresource⟩

/-- A call keeps what is locked as it is exactly when it allocates nothing under
the name of a locked resource. -/
theorem Tracked.staysLocked_step_iff (h : client.Tracked) (hstays : client.StaysLocked) {op : Op}
    (hstep : client.step op = some after) : after.StaysLocked ↔ client.KeepsLocked op := by
  cases op with
  | lock name => exact iff_of_true (hstays.step_lock h hstep) trivial
  | unlock name => exact iff_of_true (hstays.step_unlock hstep) trivial
  | allocate name size malloc =>
    by_cases hmalloc : malloc.toNat = 0
    · rw [step_allocate_null hmalloc hstep]
      exact iff_of_true hstays fun hne => absurd hmalloc hne
    · obtain ⟨hlocks, hresources⟩ := step_allocate_some hmalloc hstep
      constructor
      · intro hafter _ resource hlookup
        by_contra hlocked
        have hheld := h.held name resource hlookup (eq_true_of_ne_false hlocked)
        obtain ⟨fresh, hfresh, hmark, _⟩ := hafter name resource.data (hlocks ▸ hheld)
        rw [hresources, AList.lookup_insert] at hfresh
        obtain rfl := Option.some.inj hfresh
        cases hmark
      · intro hkeeps other data hmem
        obtain ⟨resource, hlookup, hlocked, hdata⟩ := hstays other data (hlocks ▸ hmem)
        have hother : other ≠ name := by
          rintro rfl
          rw [hkeeps hmalloc resource hlookup] at hlocked
          cases hlocked
        refine ⟨resource, ?_, hlocked, hdata⟩
        rw [hresources, AList.lookup_insert_ne hother]
        exact hlookup

/-- In every state of a run what a lock is held on is locked and keeps its data
exactly when no resource is allocated under the name of one that is locked. -/
theorem always_stays_locked_iff (ops : List Op) :
    Always step StaysLocked constructed ops ↔ Guarded step KeepsLocked constructed ops := by
  have hinit : constructed.StaysLocked := fun _ _ hmem => absurd hmem List.not_mem_nil
  exact always_iff_guarded Tracked (fun _ _ _ h hstep => h.step hstep)
    (fun _ _ _ h hstays hstep => h.staysLocked_step_iff hstays hstep) ops constructed_tracked hinit

/-- A second resource under the name of one that is locked. -/
theorem allocated_under_lock :
    ¬ Always step StaysLocked constructed
      [.allocate "texture" 64 0x1000, .lock "texture", .allocate "texture" 64 0x2000] := by
  rintro ⟨_, h⟩
  obtain ⟨_, h⟩ := h _ rfl
  obtain ⟨_, h⟩ := h _ rfl
  obtain ⟨hstays, _⟩ := h _ rfl
  obtain ⟨resource, hlookup, hlocked, _⟩ := hstays "texture" 0x1000 (by decide)
  obtain rfl := Option.some.inj hlookup
  cases hlocked

end Client

end GraphicsResourceManager

end Kernel.Memory
