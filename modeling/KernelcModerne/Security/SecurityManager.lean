import Mathlib.Data.List.AList
import KernelcModerne.Lib.AListTotal
import KernelcModerne.Lib.FirstMatch

open FirstMatch

namespace Kernel.Security

structure AccessControlEntry where
  userId : UInt32
  groupId : UInt32
  permissions : BitVec 32

structure AuditRecord where
  userId : UInt32
  action : String
  timestamp : Nat
  success : Bool

structure SecurityManager where
  initialized : Bool
  acls : AList fun _ : String => List AccessControlEntry
  auditTrail : List AuditRecord

/-- `std::out_of_range`. -/
inductive OutOfRange where
  | out_of_range

/-- `std::bitset<32>::test`. -/
def test (permissions : BitVec 32) (pos : UInt32) : Except OutOfRange Bool :=
  if pos.toNat < 32 then .ok (permissions.getLsbD pos.toNat) else .error .out_of_range

namespace AccessControlEntry

def pair (ace : AccessControlEntry) : UInt32 × UInt32 := (ace.userId, ace.groupId)

end AccessControlEntry

/-- An entry's user and group, or the wildcards in their place, are those of the
request. -/
def matchesPair (userId groupId : UInt32) (pair : UInt32 × UInt32) : Bool :=
  (pair.1 = userId ∨ pair.1 = 0xFFFFFFFF) ∧ (pair.2 = groupId ∨ pair.2 = 0xFFFFFFFF)

namespace SecurityManager

def logAuditEvent (self : SecurityManager) (userId : UInt32) (action : String) (success : Bool) (now : Nat) :
    SecurityManager :=
  { self with auditTrail := self.auditTrail ++ [⟨userId, action, now, success⟩] }

/-- The entries of a resource, none if it is not in the table. -/
def entries (self : SecurityManager) (resource : String) : List AccessControlEntry :=
  (self.acls.lookup resource).getD []

/-- `setPermissions`, which always answers true. -/
def setPermissions (self : SecurityManager) (resource : String) (userId groupId : UInt32)
    (permissions : BitVec 32) (now : Nat) : SecurityManager :=
  { self with
    acls := self.acls.insert resource
      (assign AccessControlEntry.pair ⟨userId, groupId, permissions⟩ (self.entries resource)) }.logAuditEvent
    userId "SET_PERMISSIONS" true now

/-- `checkAccess`: the decision, or the exception of `test`, which is raised
before anything is logged. -/
def checkAccess (self : SecurityManager) (resource : String) (userId groupId requestedPermission : UInt32)
    (now : Nat) : Except OutOfRange Bool × SecurityManager :=
  if ¬ self.initialized then (.ok false, self)
  else
    match self.acls.lookup resource with
    | none => (.ok false, self.logAuditEvent userId "ACCESS_DENIED" false now)
    | some entries =>
      match entries.find? fun ace => matchesPair userId groupId ace.pair with
      | none => (.ok false, self)
      | some ace =>
        match test ace.permissions requestedPermission with
        | .error error => (.error error, self)
        | .ok hasAccess => (.ok hasAccess, self.logAuditEvent userId "ACCESS_CHECK" hasAccess now)

/-- The entry that decides on a request. -/
def firstMatch (self : SecurityManager) (resource : String) (userId groupId : UInt32) :
    Option AccessControlEntry :=
  (self.entries resource).find? fun ace => matchesPair userId groupId ace.pair

/-- The arguments of a call of `setPermissions`, and its time. -/
structure PermissionCall where
  resource : String
  userId : UInt32
  groupId : UInt32
  permissions : BitVec 32
  now : Nat

namespace PermissionCall

def pair (call : PermissionCall) : UInt32 × UInt32 := (call.userId, call.groupId)

end PermissionCall

/-- The manager after calls of `setPermissions`. -/
def setAll (self : SecurityManager) (calls : List PermissionCall) : SecurityManager :=
  calls.foldl
    (fun manager call => manager.setPermissions call.resource call.userId call.groupId call.permissions call.now)
    self

/-- The permissions that the calls leave for a pair of a resource. -/
def lastPermissions (resource : String) (pair : UInt32 × UInt32) (calls : List PermissionCall)
    (permissions : BitVec 32) : BitVec 32 :=
  calls.foldl
    (fun permissions call => if call.resource = resource ∧ call.pair = pair then call.permissions else permissions)
    permissions

theorem setAll_initialized (self : SecurityManager) (calls : List PermissionCall) :
    (self.setAll calls).initialized = self.initialized := by
  unfold setAll
  induction calls generalizing self with
  | nil => rfl
  | cons call calls ih => exact ih _

theorem entries_setPermissions (self : SecurityManager) (resource other : String) (userId groupId : UInt32)
    (permissions : BitVec 32) (now : Nat) :
    (self.setPermissions resource userId groupId permissions now).entries other =
      if other = resource then
        assign AccessControlEntry.pair ⟨userId, groupId, permissions⟩ (self.entries resource)
      else self.entries other := by
  by_cases hother : other = resource
  · subst hother
    simp [setPermissions, logAuditEvent, entries]
  · simp [hother, setPermissions, logAuditEvent, entries]

/-- A call replaces the entry that decides if it is for the same pair. -/
theorem firstMatch_setPermissions {self : SecurityManager} {resource : String} {userId groupId : UInt32}
    {ace : AccessControlEntry} (h : self.firstMatch resource userId groupId = some ace) (call : PermissionCall) :
    (self.setPermissions call.resource call.userId call.groupId call.permissions call.now).firstMatch resource
        userId groupId =
      if call.resource = resource ∧ call.pair = ace.pair then some ⟨call.userId, call.groupId, call.permissions⟩
      else some ace := by
  unfold firstMatch at h ⊢
  rw [entries_setPermissions]
  by_cases hresource : resource = call.resource
  · subst hresource
    have hpair : ace.pair = AccessControlEntry.pair ⟨call.userId, call.groupId, call.permissions⟩ ↔
        call.pair = ace.pair := eq_comm
    rw [if_pos rfl, find?_assign, h]
    simp only [hpair, true_and]
  · rw [if_neg hresource, h, if_neg fun hcall => hresource hcall.1.symm]

/-- The pair whose entry decides stays the same, and its permissions are those
last set. -/
theorem firstMatch_setAll {self : SecurityManager} {resource : String} {userId groupId : UInt32}
    {ace : AccessControlEntry} (h : self.firstMatch resource userId groupId = some ace)
    (calls : List PermissionCall) :
    (self.setAll calls).firstMatch resource userId groupId =
      some { ace with permissions := lastPermissions resource ace.pair calls ace.permissions } := by
  induction calls generalizing self ace with
  | nil => exact h
  | cons call calls ih =>
    have hstep := firstMatch_setPermissions h call
    unfold setAll lastPermissions at ih ⊢
    rw [List.foldl_cons, List.foldl_cons]
    by_cases hcall : call.resource = resource ∧ call.pair = ace.pair
    · rw [if_pos hcall] at hstep ⊢
      have hace : ace.pair = AccessControlEntry.pair ⟨call.userId, call.groupId, call.permissions⟩ :=
        hcall.2.symm
      obtain ⟨huser, hgroup⟩ := Prod.mk.inj hcall.2
      rw [ih hstep, ← hace]
      simp only [huser, hgroup]
    · rw [if_neg hcall] at hstep ⊢
      exact ih hstep

/-- An initialized manager decides by the first entry that matches. -/
theorem checkAccess_answer {self : SecurityManager} (hinit : self.initialized = true) (resource : String)
    (userId groupId requestedPermission : UInt32) (now : Nat) :
    (self.checkAccess resource userId groupId requestedPermission now).1 =
      match self.firstMatch resource userId groupId with
      | none => .ok false
      | some ace => test ace.permissions requestedPermission := by
  unfold checkAccess firstMatch entries
  rw [if_neg (not_not.mpr hinit)]
  cases self.acls.lookup resource with
  | none => rfl
  | some entries =>
    simp only [Option.getD_some]
    cases entries.find? fun ace => matchesPair userId groupId ace.pair with
    | none => rfl
    | some ace =>
      simp only
      cases test ace.permissions requestedPermission with
      | error error => rfl
      | ok hasAccess => rfl

theorem test_of_lt {permissions : BitVec 32} {pos : UInt32} (h : pos.toNat < 32) :
    test permissions pos = .ok (permissions.getLsbD pos.toNat) := if_pos h

theorem test_of_not_lt {permissions : BitVec 32} {pos : UInt32} (h : ¬ pos.toNat < 32) :
    test permissions pos = .error .out_of_range := if_neg h

theorem matchesPair_self (userId groupId : UInt32) : matchesPair userId groupId (userId, groupId) = true := by
  simp [matchesPair]

/-- After a call for a pair that matches, this pair's entry decides if none did
before. -/
theorem firstMatch_of_none {self : SecurityManager} {resource : String} {userId groupId : UInt32}
    (h : self.firstMatch resource userId groupId = none) (permissions : BitVec 32) (now : Nat) :
    (self.setPermissions resource userId groupId permissions now).firstMatch resource userId groupId =
      some ⟨userId, groupId, permissions⟩ := by
  unfold firstMatch at h ⊢
  rw [entries_setPermissions, if_pos rfl, find?_assign, h]
  exact if_pos (matchesPair_self userId groupId)

/-- No entry for another pair decides on the requests of a pair. -/
def Unshadowed (self : SecurityManager) (resource : String) (userId groupId : UInt32) : Prop :=
  ∀ ace, self.firstMatch resource userId groupId = some ace → ace.pair = (userId, groupId)

/-- Without an entry before its own, the entry of a pair decides once it is
set. -/
theorem Unshadowed.firstMatch {self : SecurityManager} {resource : String} {userId groupId : UInt32}
    (h : self.Unshadowed resource userId groupId) (permissions : BitVec 32) (now : Nat) :
    (self.setPermissions resource userId groupId permissions now).firstMatch resource userId groupId =
      some ⟨userId, groupId, permissions⟩ := by
  cases hfirst : self.firstMatch resource userId groupId with
  | none => exact firstMatch_of_none hfirst permissions now
  | some ace =>
    have hstep := firstMatch_setPermissions hfirst ⟨resource, userId, groupId, permissions, now⟩
    rwa [if_pos ⟨rfl, (h ace hfirst).symm⟩] at hstep

theorem lastPermissions_of_other {resource : String} {pair : UInt32 × UInt32} {calls : List PermissionCall}
    (h : ∀ call ∈ calls, ¬ (call.resource = resource ∧ call.pair = pair)) (permissions : BitVec 32) :
    lastPermissions resource pair calls permissions = permissions := by
  unfold lastPermissions
  induction calls with
  | nil => rfl
  | cons call calls ih =>
    obtain ⟨hcall, hcalls⟩ := List.forall_mem_cons.mp h
    rw [List.foldl_cons, if_neg hcall]
    exact ih hcalls

/-- What is answered for a pair until its permissions are set again: the
permissions set, if no other entry that matches stands before the one of the
pair, else those last set for the first such entry. -/
theorem checkAccess_after_setPermissions {self : SecurityManager} (hinit : self.initialized = true)
    (resource : String) (userId groupId : UInt32) (permissions : BitVec 32) (now : Nat)
    {calls : List PermissionCall}
    (hcalls : ∀ call ∈ calls, ¬ (call.resource = resource ∧ call.pair = (userId, groupId)))
    (requestedPermission : UInt32) (hpermission : requestedPermission.toNat < 32) (later : Nat) :
    (self.Unshadowed resource userId groupId →
      (((self.setPermissions resource userId groupId permissions now).setAll calls).checkAccess resource userId
        groupId requestedPermission later).1 = .ok (permissions.getLsbD requestedPermission.toNat)) ∧
    ∀ ace, self.firstMatch resource userId groupId = some ace → ace.pair ≠ (userId, groupId) →
      (((self.setPermissions resource userId groupId permissions now).setAll calls).checkAccess resource userId
        groupId requestedPermission later).1 =
        .ok ((lastPermissions resource ace.pair calls ace.permissions).getLsbD requestedPermission.toNat) := by
  have hafter : ((self.setPermissions resource userId groupId permissions now).setAll calls).initialized = true :=
    (setAll_initialized _ calls).trans hinit
  rw [checkAccess_answer hafter]
  constructor
  · intro hunshadowed
    have hpair : AccessControlEntry.pair ⟨userId, groupId, permissions⟩ = (userId, groupId) := rfl
    rw [firstMatch_setAll (hunshadowed.firstMatch permissions now) calls, hpair, lastPermissions_of_other hcalls]
    exact test_of_lt hpermission
  · intro ace hace hother
    have hset := firstMatch_setPermissions hace ⟨resource, userId, groupId, permissions, now⟩
    rw [if_neg fun hcall => hother hcall.2.symm] at hset
    rw [firstMatch_setAll hset calls]
    exact test_of_lt hpermission

/-- An initialized manager without entries. -/
def opened : SecurityManager where
  initialized := true
  acls := ∅
  auditTrail := []

theorem opened_answers_last_set :
    (((opened.setPermissions "file" 1 1 5#32 0).setAll [⟨"file", 0xFFFFFFFF, 0xFFFFFFFF, 0#32, 1⟩]).checkAccess
      "file" 1 1 2 2).1 = .ok true := by
  have hcalls : ∀ call ∈ [(⟨"file", 0xFFFFFFFF, 0xFFFFFFFF, 0#32, 1⟩ : PermissionCall)],
      ¬ (call.resource = "file" ∧ call.pair = (1, 1)) := by decide
  have hinit : opened.initialized = true := rfl
  exact (checkAccess_after_setPermissions hinit "file" 1 1 5#32 0 hcalls 2 (by decide) 2).1 nofun

/-- The entry for everyone denies what is then allowed to one user. -/
theorem wildcard_set_first_decides :
    (((opened.setPermissions "file" 0xFFFFFFFF 0xFFFFFFFF 0#32 0).setPermissions "file" 1 1 5#32 1).checkAccess
      "file" 1 1 2 2).1 ≠ .ok ((5#32).getLsbD 2) := by
  intro h
  exact absurd (Except.ok.inj h) (by decide)

/-- The call answers a decision and leaves one record of it. -/
def Audited (self : SecurityManager) (userId : UInt32) (result : Except OutOfRange Bool × SecurityManager) :
    Prop :=
  ∃ decision record, result.1 = .ok decision ∧ result.2.auditTrail = self.auditTrail ++ [record] ∧
    record.userId = userId ∧ record.success = decision

theorem not_audited_of_auditTrail_eq {self : SecurityManager} {userId : UInt32}
    {result : Except OutOfRange Bool × SecurityManager} (h : result.2.auditTrail = self.auditTrail) :
    ¬ self.Audited userId result := by
  rintro ⟨decision, record, _, htrail, _⟩
  rw [h] at htrail
  simp at htrail

/-- A decision is recorded where the resource has no entries, and where one
matches and has the permission's bit. -/
theorem checkAccess_audited_iff {self : SecurityManager} (hinit : self.initialized = true) (resource : String)
    (userId groupId requestedPermission : UInt32) (now : Nat) :
    self.Audited userId (self.checkAccess resource userId groupId requestedPermission now) ↔
      resource ∉ self.acls ∨
        ((∃ ace ∈ self.entries resource, matchesPair userId groupId ace.pair) ∧ requestedPermission.toNat < 32) := by
  unfold checkAccess entries
  rw [if_neg (not_not.mpr hinit)]
  cases hlookup : self.acls.lookup resource with
  | none =>
    exact iff_of_true ⟨_, _, rfl, rfl, rfl, rfl⟩ (.inl (AList.lookup_eq_none.mp hlookup))
  | some entries =>
    have hmem : resource ∈ self.acls := AList.mem_of_lookup hlookup
    simp only [Option.getD_some]
    cases hfirst : entries.find? fun ace => matchesPair userId groupId ace.pair with
    | none =>
      apply iff_of_false (not_audited_of_auditTrail_eq rfl)
      intro h
      cases h with
      | inl hno => exact hno hmem
      | inr hmatch =>
        obtain ⟨⟨ace, hace, hmatches⟩, _⟩ := hmatch
        exact List.find?_eq_none.mp hfirst ace hace hmatches
    | some ace =>
      by_cases hpermission : requestedPermission.toNat < 32
      · simp only [test_of_lt hpermission]
        have hmatches : ∃ ace ∈ entries, matchesPair userId groupId ace.pair :=
          ⟨ace, List.mem_of_find?_eq_some hfirst,
            List.find?_some (p := fun ace : AccessControlEntry => matchesPair userId groupId ace.pair) hfirst⟩
        exact iff_of_true ⟨_, _, rfl, rfl, rfl, rfl⟩ (.inr ⟨hmatches, hpermission⟩)
      · simp only [test_of_not_lt hpermission]
        apply iff_of_false (not_audited_of_auditTrail_eq rfl)
        intro h
        cases h with
        | inl hno => exact hno hmem
        | inr hmatch => exact hpermission hmatch.2

theorem opened_audits_missing_resource : opened.Audited 1 (opened.checkAccess "file" 1 1 2 0) := by
  have hinit : opened.initialized = true := rfl
  exact (checkAccess_audited_iff hinit "file" 1 1 2 0).mpr (.inl (AList.notMem_empty _))

/-- A user for whom the resource has no entry is denied without a record. -/
theorem denial_leaves_no_record :
    ¬ (opened.setPermissions "file" 2 2 5#32 0).Audited 1
      ((opened.setPermissions "file" 2 2 5#32 0).checkAccess "file" 1 1 2 1) :=
  not_audited_of_auditTrail_eq rfl

end SecurityManager

end Kernel.Security
