import Mathlib.Data.List.AList
import KernelcModerne.Lib.Separators
import KernelcModerne.Lib.Transition

open Transition Separators

namespace Win32Compat

/-- The modules that the layer loads. -/
inductive Module where
  | kernel32
  | user32
  | gdi32
  | d3d11
  | d3d12
  | dxgi
  deriving DecidableEq

/-- The name that `GetProcAddress` compares with. -/
def Module.name : Module → String
  | .kernel32 => "kernel32"
  | .user32 => "user32"
  | .gdi32 => "gdi32"
  | .d3d11 => "d3d11"
  | .d3d12 => "d3d12"
  | .dxgi => "dxgi"

def Module.all : List Module := [.kernel32, .user32, .gdi32, .d3d11, .d3d12, .dxgi]

/-- The module that the chain of `strcmp` ends at. -/
def moduleNamed (moduleName : String) : Option Module :=
  Module.all.find? fun module => moduleName = module.name

/-- The handle that `LoadLibrary` answers for a module when it does not fail, and
`::GetProcAddress`. `none` is the null pointer. -/
structure Windows where
  handle : Module → Nat
  getProcAddress : Nat → String → Option Nat

/-- The handles of the six modules and the pointers found so far. -/
structure WindowsCompatibilityLayer where
  handles : Module → Option Nat
  cachedFunctions : AList fun _ : String => Option Nat

namespace WindowsCompatibilityLayer

def constructed : WindowsCompatibilityLayer where
  handles _ := none
  cachedFunctions := ∅

variable (windows : Windows)

/-- `loads` says for which modules `LoadLibrary` does not fail. -/
def initializeWrappers (self : WindowsCompatibilityLayer) (loads : Module → Bool) :
    Bool × WindowsCompatibilityLayer :=
  (Module.all.all loads,
    { self with handles := fun module => if loads module then some (windows.handle module) else none })

def key (moduleName functionName : String) : String := moduleName ++ "::" ++ functionName

/-- The handle under a name. -/
def module (self : WindowsCompatibilityLayer) (moduleName : String) : Option Nat :=
  (moduleNamed moduleName).bind self.handles

/-- The block of a lookup whose key is not in the map. -/
def resolve (self : WindowsCompatibilityLayer) (moduleName functionName : String) :
    WindowsCompatibilityLayer :=
  match self.module moduleName with
  | some module =>
    { self with
      cachedFunctions := self.cachedFunctions.insert (key moduleName functionName)
        (windows.getProcAddress module functionName) }
  | none => self

/-- `cachedFunctions[key]`, which inserts a null pointer where there is nothing. -/
def subscript (self : WindowsCompatibilityLayer) (key : String) : Option Nat × WindowsCompatibilityLayer :=
  match self.cachedFunctions.lookup key with
  | some function => (function, self)
  | none => (none, { self with cachedFunctions := self.cachedFunctions.insert key none })

def getProcAddress (self : WindowsCompatibilityLayer) (moduleName functionName : String) :
    Option Nat × WindowsCompatibilityLayer :=
  let key := key moduleName functionName
  if key ∈ self.cachedFunctions then self.subscript key
  else (self.resolve windows moduleName functionName).subscript key

end WindowsCompatibilityLayer

open WindowsCompatibilityLayer

/-- A layer, and whether `InitializeWrappers` has returned true. -/
structure Client where
  layer : WindowsCompatibilityLayer
  ready : Bool

inductive Op where
  | initializeWrappers (loads : Module → Bool)
  | getProcAddress (moduleName functionName : String)

namespace Client

variable (windows : Windows)

def start : Client := ⟨constructed, false⟩

def step (client : Client) : Op → Option Client
  | .initializeWrappers loads =>
    let (result, layer) := client.layer.initializeWrappers windows loads
    some { layer, ready := client.ready || result }
  | .getProcAddress moduleName functionName =>
    some { client with layer := (client.layer.getProcAddress windows moduleName functionName).2 }

/-- After the initialization a lookup in one of the modules returns what
`::GetProcAddress` does. -/
def Transparent (client : Client) : Op → Prop
  | .getProcAddress moduleName functionName =>
    client.ready = true → ∀ module, moduleNamed moduleName = some module →
      (client.layer.getProcAddress windows moduleName functionName).1 =
        windows.getProcAddress (windows.handle module) functionName
  | .initializeWrappers _ => True

end Client

/-- The call is a lookup under the key. -/
def Op.looksUp (key : String) : Op → Bool
  | .getProcAddress moduleName functionName => WindowsCompatibilityLayer.key moduleName functionName = key
  | .initializeWrappers _ => false

/-- The first of the calls that looks up under the key does so after the calls
`front`, for the two names. -/
structure FirstLookup (sought : String) (ops front : List Op) (moduleName functionName : String) : Prop where
  split : ∃ back, ops = front ++ .getProcAddress moduleName functionName :: back
  key_eq : key moduleName functionName = sought
  front : ∀ op ∈ front, op.looksUp sought = false

namespace Client

/-- Of the lookups under one key up to a call, the first one has found its module
loaded. -/
def FirstFindsModule (windows : Windows) (first : List Op) (moduleName functionName : String) : Prop :=
  ∀ front moduleName' functionName',
    FirstLookup (key moduleName functionName) (first ++ [.getProcAddress moduleName functionName]) front
      moduleName' functionName' →
    ∀ before, run (step windows) start front = some before → (before.layer.module moduleName').isSome

end Client

theorem moduleNamed_eq_some_iff {moduleName : String} {module : Module} :
    moduleNamed moduleName = some module ↔ moduleName = module.name := by
  constructor
  · intro h
    have hfound := List.find?_some h
    simpa using hfound
  · rintro rfl
    cases module <;> rfl

/-- The six names hold no colon, so that their keys are those of no other name of
a module. -/
theorem key_name_inj {module module' : Module} {functionName functionName' : String}
    (h : key module.name functionName = key module'.name functionName') :
    module = module' ∧ functionName = functionName' := by
  have hcolon (module : Module) : ':' ∉ module.name.toList := by cases module <;> decide
  rcases joined_eq_iff.mp h with ⟨hname, hfunction⟩ | hlater | hlater
  · refine ⟨?_, hfunction⟩
    have hsame := moduleNamed_eq_some_iff.mpr hname
    rw [moduleNamed_eq_some_iff.mpr rfl] at hsame
    exact Option.some.inj hsame
  · exact absurd hlater (not_splitsLater_of_not_mem (hcolon module'))
  · exact absurd hlater (not_splitsLater_of_not_mem (hcolon module))

namespace WindowsCompatibilityLayer

variable {windows : Windows} {self : WindowsCompatibilityLayer} {moduleName functionName : String}

/-- What a lookup finds where nothing is stored for it. -/
def finds (windows : Windows) (self : WindowsCompatibilityLayer) (moduleName functionName : String) :
    Option Nat :=
  (self.module moduleName).bind fun module => windows.getProcAddress module functionName

/-- A lookup answers what is stored under its key; where there is nothing, it
answers and stores what it finds. -/
theorem getProcAddress_eq :
    self.getProcAddress windows moduleName functionName =
      match self.cachedFunctions.lookup (key moduleName functionName) with
      | some function => (function, self)
      | none =>
        (self.finds windows moduleName functionName,
          { self with
            cachedFunctions := self.cachedFunctions.insert (key moduleName functionName)
              (self.finds windows moduleName functionName) }) := by
  unfold getProcAddress
  cases hlookup : self.cachedFunctions.lookup (key moduleName functionName) with
  | some function =>
    have hmem : key moduleName functionName ∈ self.cachedFunctions :=
      AList.lookup_isSome.mp (by rw [hlookup]; rfl)
    simp only [if_pos hmem, subscript, hlookup]
  | none =>
    have hmem : key moduleName functionName ∉ self.cachedFunctions := AList.lookup_eq_none.mp hlookup
    simp only [if_neg hmem, resolve, finds]
    cases self.module moduleName with
    | some module => simp only [subscript, AList.lookup_insert, Option.bind_some]
    | none => simp only [subscript, hlookup, Option.bind_none]

theorem getProcAddress_fst :
    (self.getProcAddress windows moduleName functionName).1 =
      (self.cachedFunctions.lookup (key moduleName functionName)).getD
        (self.finds windows moduleName functionName) := by
  rw [getProcAddress_eq]
  cases self.cachedFunctions.lookup (key moduleName functionName) <;> rfl

/-- Then its key is in the map, and the other keys are as they were. -/
theorem lookup_getProcAddress (other : String) :
    (self.getProcAddress windows moduleName functionName).2.cachedFunctions.lookup other =
      if other = key moduleName functionName then
        some ((self.cachedFunctions.lookup other).getD (self.finds windows moduleName functionName))
      else self.cachedFunctions.lookup other := by
  rw [getProcAddress_eq]
  cases hlookup : self.cachedFunctions.lookup (key moduleName functionName) with
  | some function =>
    by_cases hother : other = key moduleName functionName
    · rw [if_pos hother, hother, hlookup, Option.getD_some]
    · rw [if_neg hother]
  | none =>
    by_cases hother : other = key moduleName functionName
    · rw [if_pos hother, hother, hlookup, Option.getD_none]
      exact AList.lookup_insert _
    · rw [if_neg hother]
      exact AList.lookup_insert_ne hother

theorem handles_getProcAddress :
    (self.getProcAddress windows moduleName functionName).2.handles = self.handles := by
  rw [getProcAddress_eq]
  cases self.cachedFunctions.lookup (key moduleName functionName) <;> rfl

/-- The handles are null or those of their modules. -/
def HandlesLoaded (windows : Windows) (self : WindowsCompatibilityLayer) : Prop :=
  ∀ module handle, self.handles module = some handle → handle = windows.handle module

/-- Under the key of a function of one of the modules, a lookup finds the function
exactly where the module is loaded. -/
theorem HandlesLoaded.finds_eq {module : Module} {other : String} (hloaded : self.HandlesLoaded windows)
    (hkey : key moduleName functionName = key module.name other) :
    self.finds windows moduleName functionName =
      if (self.module moduleName).isSome then windows.getProcAddress (windows.handle module) other
      else none := by
  unfold finds
  cases hmodule : self.module moduleName with
  | none => rfl
  | some handle =>
    obtain ⟨module', hname, hhandle⟩ := Option.bind_eq_some_iff.mp hmodule
    rw [moduleNamed_eq_some_iff] at hname
    subst hname
    obtain ⟨rfl, rfl⟩ := key_name_inj hkey
    rw [hloaded module' handle hhandle]
    rfl

end WindowsCompatibilityLayer

namespace Client

variable {windows : Windows} {client after : Client} {op : Op}

theorem handlesLoaded_step (hstep : client.step windows op = some after)
    (hloaded : client.layer.HandlesLoaded windows) : after.layer.HandlesLoaded windows := by
  cases op with
  | initializeWrappers loads =>
    obtain rfl := Option.some.inj hstep
    intro module handle hhandle
    obtain ⟨_, hsome⟩ := Option.ite_none_right_eq_some.mp hhandle
    exact (Option.some.inj hsome).symm
  | getProcAddress moduleName functionName =>
    obtain rfl := Option.some.inj hstep
    intro module handle hhandle
    rw [handles_getProcAddress] at hhandle
    exact hloaded module handle hhandle

theorem handlesLoaded_run {ops : List Op} (hrun : run (step windows) start ops = some client) :
    client.layer.HandlesLoaded windows :=
  run_invariant (fun client => client.layer.HandlesLoaded windows)
    (fun _ _ _ hloaded hstep => handlesLoaded_step hstep hloaded) ops
    (fun _ _ hhandle => nomatch hhandle) hrun

/-- What is stored under a key stays. -/
theorem lookup_step_of_some {key : String} {function : Option Nat}
    (hstep : client.step windows op = some after)
    (hstored : client.layer.cachedFunctions.lookup key = some function) :
    after.layer.cachedFunctions.lookup key = some function := by
  cases op with
  | initializeWrappers loads =>
    obtain rfl := Option.some.inj hstep
    exact hstored
  | getProcAddress moduleName functionName =>
    obtain rfl := Option.some.inj hstep
    rw [lookup_getProcAddress, hstored, Option.getD_some, ite_self]

theorem lookup_step_of_not_looksUp {key : String} (hstep : client.step windows op = some after)
    (hother : op.looksUp key = false) :
    after.layer.cachedFunctions.lookup key = client.layer.cachedFunctions.lookup key := by
  cases op with
  | initializeWrappers loads =>
    obtain rfl := Option.some.inj hstep
    rfl
  | getProcAddress moduleName functionName =>
    obtain rfl := Option.some.inj hstep
    rw [lookup_getProcAddress, if_neg fun hkey => of_decide_eq_false hother hkey.symm]

theorem lookup_run_of_not_looksUp {key : String} {ops : List Op} (hother : ∀ op ∈ ops, op.looksUp key = false)
    (hrun : run (step windows) client ops = some after) :
    after.layer.cachedFunctions.lookup key = client.layer.cachedFunctions.lookup key := by
  induction ops generalizing client with
  | nil =>
    obtain rfl := Option.some.inj hrun
    rfl
  | cons op ops ih =>
    obtain ⟨next, hstep, hrun⟩ := Option.bind_eq_some_iff.mp hrun
    rw [ih (fun op hop => hother op (List.mem_cons_of_mem _ hop)) hrun]
    exact lookup_step_of_not_looksUp hstep (hother op List.mem_cons_self)

theorem exists_run (client : Client) (ops : List Op) :
    ∃ after, run (step windows) client ops = some after := by
  induction ops generalizing client with
  | nil => exact ⟨client, rfl⟩
  | cons op ops ih => cases op <;> exact ih _

/-- A lookup and those before it hold a first one under its key. -/
theorem exists_firstLookup (first : List Op) (moduleName functionName : String) :
    ∃ front moduleName' functionName', FirstLookup (key moduleName functionName)
      (first ++ [.getProcAddress moduleName functionName]) front moduleName' functionName' := by
  obtain ⟨op, hop⟩ : ∃ op, (first ++ [Op.getProcAddress moduleName functionName]).find?
      (Op.looksUp (key moduleName functionName)) = some op := by
    rw [← Option.isSome_iff_exists, List.find?_isSome]
    exact ⟨.getProcAddress moduleName functionName, by simp, decide_eq_true rfl⟩
  obtain ⟨hlooksUp, front, back, hsplit, hfront⟩ := List.find?_eq_some_iff_append.mp hop
  cases op with
  | initializeWrappers loads => cases hlooksUp
  | getProcAddress moduleName' functionName' =>
    refine ⟨front, moduleName', functionName', ⟨back, hsplit⟩, of_decide_eq_true hlooksUp, ?_⟩
    exact fun op hop => by simpa using hfront op hop

/-- A lookup answers what the first one under its key has found. -/
theorem getProcAddress_fst_of_firstLookup {first front : List Op} {before : Client}
    {moduleName functionName moduleName' functionName' : String}
    (hfirst : FirstLookup (key moduleName functionName) (first ++ [.getProcAddress moduleName functionName])
      front moduleName' functionName')
    (hbefore : run (step windows) start front = some before)
    (hrun : run (step windows) start first = some client) :
    (client.layer.getProcAddress windows moduleName functionName).1 =
      before.layer.finds windows moduleName' functionName' := by
  obtain ⟨⟨back, hsplit⟩, hkey, hfront⟩ := hfirst
  have hnone : before.layer.cachedFunctions.lookup (key moduleName functionName) = none := by
    rw [lookup_run_of_not_looksUp hfront hbefore]
    exact AList.lookup_empty _
  rw [getProcAddress_fst]
  obtain rfl | ⟨back, op, rfl⟩ := List.eq_nil_or_concat back
  · -- the lookup itself is the first one
    obtain ⟨rfl, hcall⟩ := List.append_inj' hsplit rfl
    obtain ⟨rfl, rfl⟩ : moduleName = moduleName' ∧ functionName = functionName' := by simpa using hcall
    rw [hrun, Option.some.injEq] at hbefore
    rw [hbefore, hnone, Option.getD_none]
  · -- an earlier one is, and what it has stored is there still
    rw [List.concat_eq_append, ← List.cons_append, ← List.append_assoc] at hsplit
    obtain ⟨rfl, _⟩ := List.append_inj' hsplit rfl
    rw [run_append, hbefore] at hrun
    have hstored : client.layer.cachedFunctions.lookup (key moduleName functionName) =
        some (before.layer.finds windows moduleName' functionName') := by
      refine run_invariant _ (fun _ _ _ hstored hstep => lookup_step_of_some hstep hstored) back ?_ hrun
      rw [lookup_getProcAddress, hkey, if_pos rfl, hnone, Option.getD_none]
    rw [hstored, Option.getD_some]

/-- In one of the modules, it answers the function where that one has found its
module, and null where it has not. -/
theorem getProcAddress_name_eq {first front : List Op} {before : Client} {module : Module}
    {functionName moduleName' functionName' : String}
    (hfirst : FirstLookup (key module.name functionName) (first ++ [.getProcAddress module.name functionName])
      front moduleName' functionName')
    (hbefore : run (step windows) start front = some before)
    (hrun : run (step windows) start first = some client) :
    (client.layer.getProcAddress windows module.name functionName).1 =
      if (before.layer.module moduleName').isSome then
        windows.getProcAddress (windows.handle module) functionName
      else none := by
  rw [getProcAddress_fst_of_firstLookup hfirst hbefore hrun]
  exact (handlesLoaded_run hbefore).finds_eq hfirst.key_eq

/-- A lookup in one of the modules is transparent where the module does not have
the function or the first lookup under its key has found the module. -/
theorem getProcAddress_eq_iff {first : List Op} {module : Module} {functionName : String}
    (hrun : run (step windows) start first = some client) :
    (client.layer.getProcAddress windows module.name functionName).1 =
        windows.getProcAddress (windows.handle module) functionName ↔
      (windows.getProcAddress (windows.handle module) functionName ≠ none →
        FirstFindsModule windows first module.name functionName) := by
  constructor
  · intro h hfunction front moduleName' functionName' hfirst before hbefore
    rw [getProcAddress_name_eq hfirst hbefore hrun] at h
    by_contra hnull
    rw [if_neg hnull] at h
    exact hfunction h.symm
  · intro h
    obtain ⟨front, moduleName', functionName', hfirst⟩ := exists_firstLookup first module.name functionName
    obtain ⟨before, hbefore⟩ := exists_run start front
    rw [getProcAddress_name_eq hfirst hbefore hrun]
    split
    · rfl
    · next hnull =>
      by_contra hfunction
      exact hnull (h (Ne.symm hfunction) front moduleName' functionName' hfirst before hbefore)

/-- In a run every lookup after the initialization returns what `::GetProcAddress`
does, exactly where the first lookup under its key has found its module, if the
module has the function. -/
theorem lookups_transparent_iff (windows : Windows) (ops : List Op) :
    Guarded (step windows) (Transparent windows) start ops ↔
      ∀ first moduleName functionName rest, ops = first ++ .getProcAddress moduleName functionName :: rest →
        ∀ client, run (step windows) start first = some client → client.ready = true →
          ∀ module, moduleNamed moduleName = some module →
            windows.getProcAddress (windows.handle module) functionName ≠ none →
              FirstFindsModule windows first moduleName functionName := by
  refine along_iff_forall_split.trans ?_
  constructor
  · intro h first moduleName functionName rest hsplit client hrun hready module hmodule
    obtain rfl := moduleNamed_eq_some_iff.mp hmodule
    exact (getProcAddress_eq_iff hrun).mp (h first _ rest hsplit client _ hrun rfl hready module hmodule)
  · intro h first op rest hsplit client _ hrun _
    cases op with
    | initializeWrappers loads => trivial
    | getProcAddress moduleName functionName =>
      intro hready module hmodule
      obtain rfl := moduleNamed_eq_some_iff.mp hmodule
      exact (getProcAddress_eq_iff hrun).mpr
        (h first _ functionName rest hsplit client hrun hready module hmodule)

/-- A lookup before the initialization leaves a null pointer that the same lookup
after it returns. -/
theorem early_lookup_remembered :
    ¬ Guarded (step ⟨fun _ => 1, fun _ _ => some 7⟩) (Transparent ⟨fun _ => 1, fun _ _ => some 7⟩) start
      [.getProcAddress "d3d11" "D3D11CreateDevice", .initializeWrappers fun _ => true,
        .getProcAddress "d3d11" "D3D11CreateDevice"] := by
  intro h
  obtain ⟨_, h⟩ := h _ rfl
  obtain ⟨_, h⟩ := h _ rfl
  obtain ⟨htransparent, _⟩ := h _ rfl
  have hanswer := htransparent rfl .d3d11 rfl
  revert hanswer
  decide

end Client

end Win32Compat
