import KernelcModerne.Lib.Transition
import KernelcModerne.Security.SecurityManager

open Transition

namespace Kernel.Security

/-- `SecurityLevel`, an `int` that need not be one of its four values. -/
abbrev SecurityLevel := Int32

namespace SecurityLevel

def LOW : SecurityLevel := 0

def HIGH : SecurityLevel := 2

def CRITICAL : SecurityLevel := 3

end SecurityLevel

structure SecurityPolicy where
  level : SecurityLevel
  allowFileAccess : Bool
  allowNetworking : Bool
  allowedPaths : List String
  deriving DecidableEq

/-- The manager with its policies, its log, and the texts it passed to
`EventLogger`. -/
structure PolicyManager where
  access : SecurityManager
  securityPolicies : AList fun _ : String => SecurityPolicy
  securityLog : List String
  reported : List String

/-- `setupSecurityPolicies`, `initializePermissions` and `setupAccessControl` in
their order: they may change whatever the manager has, and may throw an exception
with some `what()`. -/
abbrev Setup := PolicyManager → PolicyManager × Option String

theorem checkAccess_initialized (self : SecurityManager) (resource : String)
    (userId groupId requestedPermission : UInt32) (now : Nat) :
    (self.checkAccess resource userId groupId requestedPermission now).2.initialized = self.initialized := by
  unfold SecurityManager.checkAccess
  split
  · rfl
  · split
    · rfl
    · split
      · rfl
      · split <;> rfl

namespace PolicyManager

def constructed : PolicyManager where
  access := { initialized := false, acls := ∅, auditTrail := [] }
  securityPolicies := ∅
  securityLog := []
  reported := []

def report (self : PolicyManager) (text : String) : PolicyManager :=
  { self with reported := self.reported ++ [text] }

def initializeManager (self : PolicyManager) (setup : Setup) : Bool × PolicyManager :=
  if self.access.initialized then (true, self)
  else
    let self := self.report "Initializing Security Manager..."
    match setup self with
    | (self, some what) => (false, self.report ("Error initializing Security Manager: " ++ what))
    | (self, none) =>
      (true, { self with
        access := { self.access with initialized := true }
        securityPolicies := ∅
        securityLog := [] }.report "Security Manager initialized successfully")

def validatePolicy (policy : SecurityPolicy) : Bool :=
  if policy.level < SecurityLevel.LOW ∨ policy.level > SecurityLevel.CRITICAL then false
  else policy.allowedPaths.all fun path => !path.isEmpty

def policyEvent (processId : String) : String := "Security policy set for process: " ++ processId

def logEntry (event : String) (severity : SecurityLevel) (now : Int) : String :=
  toString now ++ " [" ++ toString severity.toInt ++ "] " ++ event

def logSecurityEvent (self : PolicyManager) (event : String) (severity : SecurityLevel) (now : Int) :
    PolicyManager :=
  let self := { self with securityLog := self.securityLog ++ [logEntry event severity now] }
  if severity ≥ SecurityLevel.HIGH then self.report ("SECURITY ALERT: " ++ event) else self

def setSecurityPolicy (self : PolicyManager) (processId : String) (policy : SecurityPolicy) (now : Int) :
    Bool × PolicyManager :=
  if ¬ self.access.initialized then (false, self)
  else if ¬ validatePolicy policy then
    (false, self.report ("Invalid security policy rejected for process: " ++ processId))
  else
    (true, { self with securityPolicies := self.securityPolicies.insert processId policy }.logSecurityEvent
      (policyEvent processId) policy.level now)

def shutdown (self : PolicyManager) : PolicyManager :=
  if ¬ self.access.initialized then self
  else
    let self := self.report "Shutting down Security Manager..."
    { self with
      securityPolicies := ∅
      securityLog := []
      access := { self.access with initialized := false } }

def setPermissions (self : PolicyManager) (resource : String) (userId groupId : UInt32) (permissions : BitVec 32)
    (now : Nat) : PolicyManager :=
  { self with access := self.access.setPermissions resource userId groupId permissions now }

def checkAccess (self : PolicyManager) (resource : String) (userId groupId requestedPermission : UInt32)
    (now : Nat) : PolicyManager :=
  { self with access := (self.access.checkAccess resource userId groupId requestedPermission now).2 }

/-- A policy that was accepted, for which process and when. -/
structure Accepted where
  processId : String
  policy : SecurityPolicy
  now : Int

/-- The policies, the log and the initialisation are as they were. -/
structure Keeps (before after : PolicyManager) : Prop where
  policies : after.securityPolicies = before.securityPolicies
  log : after.securityLog = before.securityLog
  initialized : after.access.initialized = before.access.initialized

instance (before after : PolicyManager) : Decidable (before.Keeps after) :=
  decidable_of_iff (after.securityPolicies = before.securityPolicies ∧ after.securityLog = before.securityLog ∧
      after.access.initialized = before.access.initialized)
    ⟨fun ⟨hpolicies, hlog, hinit⟩ => ⟨hpolicies, hlog, hinit⟩, fun h => ⟨h.policies, h.log, h.initialized⟩⟩

/-- A manager with the policies it has accepted since it was last initialised or
shut down; `none` once a setup has thrown that left other policies, another log or
another initialisation. -/
structure Client where
  manager : PolicyManager
  accepted : Option (List Accepted)

inductive Op where
  | initializeManager (setup : Setup)
  | setPermissions (resource : String) (userId groupId : UInt32) (permissions : BitVec 32) (now : Nat)
  | checkAccess (resource : String) (userId groupId requestedPermission : UInt32) (now : Nat)
  | setSecurityPolicy (processId : String) (policy : SecurityPolicy) (now : Int)
  | shutdown

namespace Client

def constructed : Client where
  manager := .constructed
  accepted := some []

/-- One call. A policy is accepted if the manager answers true. -/
def step (client : Client) : Op → Option Client
  | .initializeManager setup =>
    let (answer, manager) := client.manager.initializeManager setup
    some
      { manager
        accepted :=
          if client.manager.access.initialized then client.accepted
          else if answer then some []
          else if client.manager.Keeps manager then client.accepted
          else none }
  | .setPermissions resource userId groupId permissions now =>
    some { client with manager := client.manager.setPermissions resource userId groupId permissions now }
  | .checkAccess resource userId groupId requestedPermission now =>
    some { client with manager := client.manager.checkAccess resource userId groupId requestedPermission now }
  | .setSecurityPolicy processId policy now =>
    let (answer, manager) := client.manager.setSecurityPolicy processId policy now
    some
      { manager
        accepted :=
          if answer then client.accepted.map (· ++ [⟨processId, policy, now⟩]) else client.accepted }
  | .shutdown =>
    some
      { manager := client.manager.shutdown
        accepted := if client.manager.access.initialized then some [] else client.accepted }

/-- The policy that was accepted last for a process. -/
def lastPolicy (accepted : List Accepted) (processId : String) : Option SecurityPolicy :=
  (accepted.reverse.find? fun entry => entry.processId = processId).map Accepted.policy

/-- The manager stores what was accepted: for each process its last policy, and
the log has an entry for each acceptance, in their order; all of these policies
are valid, and a manager that is not initialised has none. -/
structure Stores (manager : PolicyManager) (accepted : List Accepted) : Prop where
  policies : ∀ processId, manager.securityPolicies.lookup processId = lastPolicy accepted processId
  log : manager.securityLog =
    accepted.map fun entry => logEntry (policyEvent entry.processId) entry.policy.level entry.now
  valid : ∀ entry ∈ accepted, validatePolicy entry.policy = true
  closed : manager.access.initialized = false → accepted = []

/-- What is known to be accepted is what the manager stores. -/
def Represents (client : Client) : Prop :=
  ∀ accepted, client.accepted = some accepted → Stores client.manager accepted

theorem lastPolicy_concat (accepted : List Accepted) (entry : Accepted) (processId : String) :
    lastPolicy (accepted ++ [entry]) processId =
      if entry.processId = processId then some entry.policy else lastPolicy accepted processId := by
  rw [lastPolicy, List.reverse_append, List.reverse_singleton, List.singleton_append, List.find?_cons]
  by_cases h : entry.processId = processId
  · simp [h]
  · simp [h, lastPolicy]

theorem stores_nil {manager : PolicyManager} (hpolicies : manager.securityPolicies = ∅)
    (hlog : manager.securityLog = []) : Stores manager [] where
  policies := fun processId => by
    rw [hpolicies, AList.lookup_empty]
    rfl
  log := hlog
  valid := nofun
  closed := fun _ => rfl

theorem Stores.of_keeps {manager after : PolicyManager} {accepted : List Accepted} (h : Stores manager accepted)
    (hkeeps : manager.Keeps after) : Stores after accepted where
  policies := fun processId => hkeeps.policies ▸ h.policies processId
  log := hkeeps.log.trans h.log
  valid := h.valid
  closed := fun hclosed => h.closed (hkeeps.initialized.symm.trans hclosed)

/-- What leaves the policies, the log and the initialisation as they are. -/
theorem Represents.of_keeps {client : Client} (h : client.Represents) {manager : PolicyManager}
    (hkeeps : client.manager.Keeps manager) : Represents { client with manager } :=
  fun accepted haccepted => (h accepted haccepted).of_keeps hkeeps

/-- An initialisation that answers true has cleared the policies and the log. -/
theorem initializeManager_cleared {self manager : PolicyManager} {setup : Setup}
    (hinit : self.access.initialized = false) (h : self.initializeManager setup = (true, manager)) :
    manager.securityPolicies = ∅ ∧ manager.securityLog = [] := by
  simp only [PolicyManager.initializeManager, hinit, Bool.false_eq_true, if_false] at h
  split at h
  · cases h
  · obtain rfl := (Prod.mk.inj h).2
    exact ⟨rfl, rfl⟩

theorem Represents.initializeManager {client after : Client} (h : client.Represents) (setup : Setup)
    (hstep : client.step (.initializeManager setup) = some after) : after.Represents := by
  simp only [Client.step, Option.some.injEq] at hstep
  subst hstep
  by_cases hinit : client.manager.access.initialized = true
  · simpa [PolicyManager.initializeManager, hinit] using h
  · rw [Bool.not_eq_true] at hinit
    cases hrun : client.manager.initializeManager setup with
    | mk answer manager =>
      intro accepted haccepted
      simp only [hinit, Bool.false_eq_true, if_false] at haccepted
      cases answer with
      | true =>
        obtain rfl := Option.some.inj haccepted
        obtain ⟨hpolicies, hlog⟩ := initializeManager_cleared hinit hrun
        exact stores_nil hpolicies hlog
      | false =>
        rw [if_neg Bool.false_ne_true] at haccepted
        split at haccepted
        · next hkeeps => exact (h accepted haccepted).of_keeps hkeeps
        · cases haccepted

theorem logSecurityEvent_frame (manager : PolicyManager) (event : String) (severity : SecurityLevel) (now : Int) :
    (manager.logSecurityEvent event severity now).access = manager.access ∧
      (manager.logSecurityEvent event severity now).securityPolicies = manager.securityPolicies ∧
      (manager.logSecurityEvent event severity now).securityLog =
        manager.securityLog ++ [logEntry event severity now] := by
  unfold logSecurityEvent
  split <;> exact ⟨rfl, rfl, rfl⟩

/-- `setSecurityPolicy` accepts a valid policy where the manager is initialised,
and else changes neither policies nor log. -/
theorem setSecurityPolicy_cases (manager : PolicyManager) (processId : String)
    (policy : SecurityPolicy) (now : Int) :
    (∃ after, manager.setSecurityPolicy processId policy now = (true, after) ∧
        manager.access.initialized = true ∧ validatePolicy policy = true ∧ after.access = manager.access ∧
        after.securityPolicies = manager.securityPolicies.insert processId policy ∧
        after.securityLog = manager.securityLog ++ [logEntry (policyEvent processId) policy.level now]) ∨
      ∃ after, manager.setSecurityPolicy processId policy now = (false, after) ∧ after.access = manager.access ∧
        after.securityPolicies = manager.securityPolicies ∧ after.securityLog = manager.securityLog := by
  by_cases hinit : manager.access.initialized = true
  · by_cases hvalid : validatePolicy policy = true
    · obtain ⟨haccess, hpolicies, hlog⟩ := logSecurityEvent_frame
        { manager with securityPolicies := manager.securityPolicies.insert processId policy }
        (policyEvent processId) policy.level now
      exact .inl ⟨_, by simp [PolicyManager.setSecurityPolicy, hinit, hvalid], hinit, hvalid,
        haccess, hpolicies, hlog⟩
    · exact .inr ⟨manager.report ("Invalid security policy rejected for process: " ++ processId),
        by simp [PolicyManager.setSecurityPolicy, hinit, hvalid], rfl, rfl, rfl⟩
  · exact .inr ⟨_, by simp [PolicyManager.setSecurityPolicy, hinit], rfl, rfl, rfl⟩

theorem Stores.accept {before manager : PolicyManager} {accepted : List Accepted} (h : Stores before accepted)
    {entry : Accepted} (hinit : before.access.initialized = true) (hvalid : validatePolicy entry.policy = true)
    (haccess : manager.access = before.access)
    (hpolicies : manager.securityPolicies = before.securityPolicies.insert entry.processId entry.policy)
    (hlog : manager.securityLog =
      before.securityLog ++ [logEntry (policyEvent entry.processId) entry.policy.level entry.now]) :
    Stores manager (accepted ++ [entry]) where
  policies := fun other => by
    simp only [hpolicies, lastPolicy_concat]
    by_cases hother : entry.processId = other
    · rw [if_pos hother, ← hother, AList.lookup_insert]
    · rw [if_neg hother, AList.lookup_insert_ne (Ne.symm hother), h.policies]
  log := by simp [hlog, h.log]
  valid := by
    intro other hother
    rw [List.mem_append, List.mem_singleton] at hother
    obtain hother | rfl := hother
    · exact h.valid other hother
    · exact hvalid
  closed := fun hclosed => by simp [haccess, hinit] at hclosed

theorem Represents.setSecurityPolicy {client after : Client} (h : client.Represents) (processId : String)
    (policy : SecurityPolicy) (now : Int)
    (hstep : client.step (.setSecurityPolicy processId policy now) = some after) : after.Represents := by
  obtain ⟨manager, heq, hinit, hvalid, haccess, hpolicies, hlog⟩ | ⟨manager, heq, haccess, hpolicies, hlog⟩ :=
    setSecurityPolicy_cases client.manager processId policy now
  · simp only [Client.step, heq, if_true, Option.some.injEq] at hstep
    subst hstep
    intro accepted haccepted
    obtain ⟨earlier, hearlier, rfl⟩ := Option.map_eq_some_iff.mp haccepted
    exact (h earlier hearlier).accept hinit hvalid haccess hpolicies hlog
  · simp only [Client.step, heq, Bool.false_eq_true, if_false, Option.some.injEq] at hstep
    subst hstep
    exact h.of_keeps ⟨hpolicies, hlog, by rw [haccess]⟩

theorem Represents.shutdown {client after : Client} (h : client.Represents)
    (hstep : client.step .shutdown = some after) : after.Represents := by
  obtain rfl := Option.some.inj hstep
  intro accepted haccepted
  by_cases hinit : client.manager.access.initialized = true
  · rw [if_pos hinit, Option.some.injEq] at haccepted
    subst haccepted
    simp only [PolicyManager.shutdown, hinit, not_true_eq_false, if_false]
    exact stores_nil rfl rfl
  · rw [if_neg hinit] at haccepted
    simp only [PolicyManager.shutdown, hinit]
    exact h accepted haccepted

theorem Represents.step {client after : Client} {op : Op} (h : client.Represents)
    (hstep : client.step op = some after) : after.Represents := by
  cases op with
  | initializeManager setup => exact h.initializeManager setup hstep
  | setPermissions resource userId groupId permissions now =>
    obtain rfl := Option.some.inj hstep
    exact h.of_keeps ⟨rfl, rfl, rfl⟩
  | checkAccess resource userId groupId requestedPermission now =>
    obtain rfl := Option.some.inj hstep
    exact h.of_keeps ⟨rfl, rfl, checkAccess_initialized ..⟩
  | setSecurityPolicy processId policy now => exact h.setSecurityPolicy processId policy now hstep
  | shutdown => exact h.shutdown hstep

/-- In every run, whatever the setups do, the manager stores what it accepted since
it was last initialised or shut down, and only valid policies, unless a setup has
thrown and left something else there. -/
theorem always_stores_accepted (ops : List Op) : Always step Represents constructed ops := by
  refine always_of_step (fun _ _ _ h hstep => h.step hstep) ops fun accepted haccepted => ?_
  obtain rfl := Option.some.inj haccepted
  exact stores_nil rfl rfl

end Client

end PolicyManager

end Kernel.Security
