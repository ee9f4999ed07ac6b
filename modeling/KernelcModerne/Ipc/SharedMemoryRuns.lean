import KernelcModerne.Ipc.SharedMemory

open Transition

namespace Kernel.SharedMemoryManager

theorem mappings_erase {self : SharedMemoryManager} {name : String} {segment : SharedSegment}
    (h : self.segments.lookup name = some segment) :
    self.mappings.Perm
      (mappingOf segment :: ({ segments := self.segments.erase name } : SharedMemoryManager).mappings) :=
  (AList.entries_perm_of_lookup h).map fun entry : Sigma fun _ : String => SharedSegment =>
    mappingOf entry.2

/-- Another count of references on the same mapping. -/
theorem mappings_insert {self : SharedMemoryManager} {name : String} {segment : SharedSegment}
    (h : self.segments.lookup name = some segment) (after : SharedSegment) (hmapping : mappingOf after = mappingOf segment) :
    ({ segments := self.segments.insert name after } : SharedMemoryManager).mappings.Perm
      self.mappings := by
  have hinsert : ({ segments := self.segments.insert name after } : SharedMemoryManager).mappings =
      mappingOf after :: ({ segments := self.segments.erase name } : SharedMemoryManager).mappings := rfl
  rw [hinsert, hmapping]
  exact (mappings_erase h).symm

theorem mappings_insert_of_notMem {self : SharedMemoryManager} {name : String} (h : name ∉ self.segments)
    (segment : SharedSegment) :
    ({ segments := self.segments.insert name segment } : SharedMemoryManager).mappings =
      mappingOf segment :: self.mappings := by
  simp only [mappings, AList.entries_insert_of_notMem h, List.map_cons]

theorem mem_mappings_of_lookup {self : SharedMemoryManager} {name : String} {segment : SharedSegment}
    (h : self.segments.lookup name = some segment) : mappingOf segment ∈ self.mappings :=
  (mappings_erase h).mem_iff.mpr List.mem_cons_self

namespace Client

/-- The references to the segment of a name that have not been given back. -/
def outstanding (client : Client) (name : String) : Nat :=
  (client.allocations name).length - client.deallocations name

/-- The references to one name are counted: without a segment all have been
given back, and a segment has one for each that is outstanding, all at its
address. -/
def NameCounted (segment : Option SharedSegment) (allocations : List Nat) (deallocations : Nat) : Prop :=
  match segment with
  | none => allocations.length ≤ deallocations
  | some segment => deallocations < allocations.length ∧
      segment.refCount = allocations.length - deallocations ∧
      (∀ addr ∈ allocations, addr = segment.address) ∧ segment.address ≠ nullptr

/-- The references to every name are counted, and the mappings that exist are
those of the segments, at one address each. -/
structure Tracked (client : Client) : Prop where
  names : ∀ name, NameCounted (client.manager.segments.lookup name) (client.allocations name)
    (client.deallocations name)
  created : client.created.Perm (client.unmapped ++ client.manager.mappings)
  distinct : (client.manager.mappings.map Mapping.address).Nodup

theorem Tracked.nameCounted {client : Client} (h : client.Tracked) {name : String}
    {segment : Option SharedSegment} (hlookup : client.manager.segments.lookup name = segment) :
    NameCounted segment (client.allocations name) (client.deallocations name) :=
  hlookup ▸ h.names name

theorem constructed_tracked : constructed.Tracked where
  names _ := Nat.le_refl _
  created := .nil
  distinct := .nil

theorem append_diff_left {α : Type*} [DecidableEq α] (l l' : List α) : (l ++ l').diff l = l' := by
  induction l with
  | nil => rfl
  | cons a l ih => rw [List.cons_append, List.diff_cons, List.erase_cons_head, ih]

theorem Tracked.mapped_perm {client : Client} (h : client.Tracked) :
    client.mapped.Perm client.manager.mappings := by
  have hdiff := h.created.diff_right client.unmapped
  rwa [append_diff_left] at hdiff

/-- One more reference to a segment. -/
theorem NameCounted.share {segment : SharedSegment} {allocations : List Nat} {deallocations : Nat}
    (h : NameCounted (some segment) allocations deallocations) :
    NameCounted (some { segment with refCount := segment.refCount + 1 })
      (segment.address :: allocations) deallocations := by
  obtain ⟨hlt, hcount, haddress, hnull⟩ := h
  refine ⟨?_, ?_, List.forall_mem_cons.mpr ⟨rfl, haddress⟩, hnull⟩
  · rw [List.length_cons]
    omega
  · simp only [List.length_cons]
    omega

/-- One reference less, which is not the last. -/
theorem NameCounted.release {segment : SharedSegment} {allocations : List Nat} {deallocations : Nat}
    (h : NameCounted (some segment) allocations deallocations)
    (hmore : 1 < allocations.length - deallocations) :
    NameCounted (some { segment with refCount := segment.refCount - 1 }) allocations (deallocations + 1) := by
  obtain ⟨hlt, hcount, haddress, hnull⟩ := h
  refine ⟨by omega, ?_, haddress, hnull⟩
  simp only
  omega

/-- What an allocation does: it shares the segment of the name, fails, or
creates one at a fresh address. -/
theorem step_allocate_cases {client after : Client} {name : String} {size : Nat} {mmap : Option Nat}
    (hnull : ∀ segment, client.manager.segments.lookup name = some segment → segment.address ≠ nullptr)
    (hstep : client.step (.allocate name size mmap) = some after) :
    (∃ segment, client.manager.segments.lookup name = some segment ∧
      client.manager.allocate name size mmap = some (after.manager, segment.address) ∧
      after =
        { client with
          manager := { segments :=
            client.manager.segments.insert name { segment with refCount := segment.refCount + 1 } }
          allocations := Function.update client.allocations name
            (segment.address :: client.allocations name) }) ∨
    (name ∉ client.manager.segments ∧
      client.manager.allocate name size mmap = some (after.manager, nullptr) ∧ after = client) ∨
    ∃ addr, name ∉ client.manager.segments ∧
      client.manager.allocate name size mmap = some (after.manager, addr) ∧ addr ≠ nullptr ∧
      (∀ mapping ∈ client.mapped, mapping.address ≠ addr) ∧
      after =
        { manager := { segments := client.manager.segments.insert name ⟨addr, size, 1⟩ }
          allocations := Function.update client.allocations name [addr]
          deallocations := Function.update client.deallocations name 0
          created := ⟨addr, size⟩ :: client.created
          unmapped := client.unmapped } := by
  simp only [step, Option.ite_none_left_eq_some] at hstep
  obtain ⟨hfresh, hstep⟩ := hstep
  obtain ⟨⟨manager, answer⟩, hanswer, hafter⟩ := Option.map_eq_some_iff.mp hstep
  have hallocate := hanswer
  unfold SharedMemoryManager.allocate at hallocate
  cases hlookup : client.manager.segments.lookup name with
  | some segment =>
    have hmem : name ∈ client.manager.segments := AList.mem_of_lookup hlookup
    simp only [hlookup, Option.ite_none_left_eq_some, Option.some.injEq, Prod.mk.injEq] at hallocate
    obtain ⟨_, rfl, rfl⟩ := hallocate
    rw [if_neg (hnull segment hlookup), if_pos hmem] at hafter
    subst hafter
    exact .inl ⟨segment, rfl, hanswer, rfl⟩
  | none =>
    have hmem : name ∉ client.manager.segments := AList.lookup_eq_none.mp hlookup
    simp only [hlookup] at hallocate
    cases mmap with
    | none =>
      simp only [Option.some.injEq, Prod.mk.injEq] at hallocate
      obtain ⟨rfl, rfl⟩ := hallocate
      rw [if_pos rfl] at hafter
      subst hafter
      exact .inr (.inl ⟨hmem, hanswer, rfl⟩)
    | some addr =>
      simp only [Option.some.injEq, Prod.mk.injEq] at hallocate
      obtain ⟨rfl, rfl⟩ := hallocate
      obtain ⟨haddr, hunused⟩ := Decidable.not_not.mp (fun hno => hfresh ⟨hmem, hno⟩) addr rfl
      rw [if_neg haddr, if_neg hmem] at hafter
      subst hafter
      exact .inr (.inr ⟨addr, hmem, hanswer, haddr, hunused, rfl⟩)

theorem Tracked.address_ne_nullptr {client : Client} (h : client.Tracked) {name : String}
    {segment : SharedSegment} (hlookup : client.manager.segments.lookup name = some segment) :
    segment.address ≠ nullptr :=
  (h.nameCounted hlookup).2.2.2

/-- Where the other names are left as they are, only the count of one name is to
be checked. -/
theorem Tracked.names_update {client : Client} (h : client.Tracked) (name : String)
    {segments : AList fun _ : String => SharedSegment} {allocations : String → List Nat}
    {deallocations : String → Nat}
    (hname : NameCounted (segments.lookup name) (allocations name) (deallocations name))
    (hothers : ∀ other, other ≠ name →
      segments.lookup other = client.manager.segments.lookup other ∧
        allocations other = client.allocations other ∧ deallocations other = client.deallocations other)
    (other : String) : NameCounted (segments.lookup other) (allocations other) (deallocations other) := by
  by_cases hother : other = name
  · rwa [hother]
  · obtain ⟨hsegments, hallocations, hdeallocations⟩ := hothers other hother
    rw [hsegments, hallocations, hdeallocations]
    exact h.names other

theorem Tracked.allocate {client after : Client} (h : client.Tracked) {name : String} {size : Nat}
    {mmap : Option Nat} (hstep : client.step (.allocate name size mmap) = some after) : after.Tracked := by
  cases step_allocate_cases (fun _ hlookup => h.address_ne_nullptr hlookup) hstep with
  | inl hshared =>
    obtain ⟨segment, hlookup, _, rfl⟩ := hshared
    have hmappings := mappings_insert hlookup { segment with refCount := segment.refCount + 1 } rfl
    have hname := h.nameCounted hlookup
    constructor
    · apply h.names_update name
      · simp only [AList.lookup_insert, Function.update_self]
        exact hname.share
      · intro other hother
        exact ⟨AList.lookup_insert_ne hother, Function.update_of_ne hother _ _, rfl⟩
    · exact h.created.trans (hmappings.symm.append_left _)
    · exact (hmappings.map Mapping.address).nodup_iff.mpr h.distinct
  | inr hrest =>
    cases hrest with
    | inl hfailed =>
      obtain ⟨_, _, rfl⟩ := hfailed
      exact h
    | inr hcreated =>
      obtain ⟨addr, hmem, _, haddr, hunused, rfl⟩ := hcreated
      have hmappings := mappings_insert_of_notMem hmem ⟨addr, size, 1⟩
      constructor
      · apply h.names_update name
        · simp only [AList.lookup_insert, Function.update_self]
          exact ⟨Nat.one_pos, rfl, fun _ hmem => List.mem_singleton.mp hmem, haddr⟩
        · intro other hother
          exact ⟨AList.lookup_insert_ne hother, Function.update_of_ne hother _ _,
            Function.update_of_ne hother _ _⟩
      · rw [hmappings]
        exact (h.created.cons _).trans List.perm_middle.symm
      · rw [hmappings, List.map_cons, List.nodup_cons]
        refine ⟨?_, h.distinct⟩
        intro hmem
        obtain ⟨mapping, hmapping, heq⟩ := List.mem_map.mp hmem
        exact hunused mapping (h.mapped_perm.mem_iff.mpr hmapping) heq

/-- What a deallocation does: the name has no segment, or the segment loses a
reference, and with the last one its mapping. -/
theorem Tracked.step_deallocate_cases {client after : Client} (h : client.Tracked) {name : String}
    (hstep : client.step (.deallocate name) = some after) :
    (client.manager.segments.lookup name = none ∧ client.outstanding name = 0 ∧ after = client) ∨
    (∃ segment, client.manager.segments.lookup name = some segment ∧ client.outstanding name = 1 ∧
      after =
        { client with
          manager := { segments := client.manager.segments.erase name }
          deallocations := Function.update client.deallocations name (client.deallocations name + 1)
          unmapped := mappingOf segment :: client.unmapped }) ∨
    ∃ segment, client.manager.segments.lookup name = some segment ∧ 1 < client.outstanding name ∧
      after =
        { client with
          manager := { segments :=
            client.manager.segments.insert name { segment with refCount := segment.refCount - 1 } }
          deallocations := Function.update client.deallocations name (client.deallocations name + 1) } := by
  simp only [step, SharedMemoryManager.deallocate, Option.some.injEq] at hstep
  cases hlookup : client.manager.segments.lookup name with
  | none =>
    simp only [hlookup, Bool.false_eq_true, if_false, Option.toList_none, List.nil_append] at hstep
    exact .inl ⟨rfl, Nat.sub_eq_zero_of_le (h.nameCounted hlookup), hstep.symm⟩
  | some segment =>
    obtain ⟨hlt, hcount, _, _⟩ := h.nameCounted hlookup
    simp only [hlookup] at hstep
    unfold outstanding
    by_cases hlast : segment.refCount - 1 ≤ 0
    · rw [if_pos hlast] at hstep
      exact .inr (.inl ⟨segment, rfl, by omega, hstep.symm⟩)
    · rw [if_neg hlast] at hstep
      exact .inr (.inr ⟨segment, rfl, by omega, hstep.symm⟩)

theorem Tracked.deallocate {client after : Client} (h : client.Tracked) {name : String}
    (hstep : client.step (.deallocate name) = some after) : after.Tracked := by
  cases h.step_deallocate_cases hstep with
  | inl hnone =>
    obtain ⟨_, _, rfl⟩ := hnone
    exact h
  | inr hfound =>
    cases hfound with
    | inl hlast =>
      obtain ⟨segment, hlookup, hone, rfl⟩ := hlast
      have hmappings := mappings_erase hlookup
      constructor
      · apply h.names_update name
        · simp only [AList.lookup_erase, Function.update_self]
          unfold outstanding at hone
          unfold NameCounted
          omega
        · intro other hother
          exact ⟨AList.lookup_erase_ne hother, rfl, Function.update_of_ne hother _ _⟩
      · exact h.created.trans ((hmappings.append_left _).trans List.perm_middle)
      · exact ((hmappings.map Mapping.address).nodup_iff.mp h.distinct).of_cons
    | inr hmore =>
      obtain ⟨segment, hlookup, hmore, rfl⟩ := hmore
      have hmappings := mappings_insert hlookup { segment with refCount := segment.refCount - 1 } rfl
      have hname := h.nameCounted hlookup
      constructor
      · apply h.names_update name
        · simp only [AList.lookup_insert, Function.update_self]
          unfold outstanding at hmore
          exact hname.release hmore
        · intro other hother
          exact ⟨AList.lookup_insert_ne hother, rfl, Function.update_of_ne hother _ _⟩
      · exact h.created.trans (hmappings.symm.append_left _)
      · exact (hmappings.map Mapping.address).nodup_iff.mpr h.distinct

theorem Tracked.step {client after : Client} (h : client.Tracked) {op : Op}
    (hstep : client.step op = some after) : after.Tracked := by
  cases op with
  | allocate name size mmap => exact h.allocate hstep
  | deallocate name => exact h.deallocate hstep

/-- The table of segments counts the references: a name has a segment while some
are outstanding, `refCount` is their number, and all have its address. Each
mapping created is unmapped or is the one of a segment, at an address of its
own. -/
structure Counted (client : Client) : Prop where
  present : ∀ name, name ∈ client.manager.segments ↔
    client.deallocations name < (client.allocations name).length
  refCount : ∀ name segment, client.manager.segments.lookup name = some segment →
    segment.refCount = (client.allocations name).length - client.deallocations name
  shared : ∀ name segment, client.manager.segments.lookup name = some segment →
    ∀ addr ∈ client.allocations name, addr = segment.address
  conserved : client.created.Perm (client.unmapped ++ client.manager.mappings)
  distinct : (client.manager.mappings.map Mapping.address).Nodup
  answers : ∀ name size mmap, client.outstanding name < INT_MAX → client.Fresh mmap →
    (client.step (.allocate name size mmap)).isSome

/-- A step unmaps nothing, or the segment of the name of which it gives back the
last reference. -/
def UnmapsAtZero (client : Client) (op : Op) (after : Client) : Prop :=
  match op with
  | .allocate _ _ _ => after.unmapped = client.unmapped
  | .deallocate name =>
    (client.outstanding name = 1 → ∃ segment, client.manager.segments.lookup name = some segment ∧
      after.unmapped = mappingOf segment :: client.unmapped) ∧
    (client.outstanding name ≠ 1 → after.unmapped = client.unmapped)

/-- An allocation is only undefined where `refCount` would overflow. -/
theorem Tracked.allocate_isSome {client : Client} (h : client.Tracked) {name : String}
    (hroom : client.outstanding name < INT_MAX) (size : Nat) (mmap : Option Nat) :
    (client.manager.allocate name size mmap).isSome := by
  unfold SharedMemoryManager.allocate
  cases hlookup : client.manager.segments.lookup name with
  | some segment =>
    obtain ⟨hlt, hcount, _, _⟩ := h.nameCounted hlookup
    unfold outstanding at hroom
    simp only
    rw [if_neg (by omega)]
    rfl
  | none => cases mmap <;> rfl

theorem Tracked.counted {client : Client} (h : client.Tracked) : client.Counted where
  present name := by
    cases hlookup : client.manager.segments.lookup name with
    | none =>
      exact iff_of_false (AList.lookup_eq_none.mp hlookup) (Nat.not_lt.mpr (h.nameCounted hlookup))
    | some segment =>
      exact iff_of_true (AList.mem_of_lookup hlookup) (h.nameCounted hlookup).1
  refCount name segment hlookup := (h.nameCounted hlookup).2.1
  shared name segment hlookup := (h.nameCounted hlookup).2.2.1
  conserved := h.created
  distinct := h.distinct
  answers name size mmap hroom hfresh := by
    simp only [Client.step]
    rw [if_neg fun hno => hno.2 hfresh, Option.isSome_map]
    exact h.allocate_isSome hroom size mmap

theorem Tracked.unmapsAtZero {client after : Client} (h : client.Tracked) {op : Op}
    (hstep : client.step op = some after) : client.UnmapsAtZero op after := by
  cases op with
  | allocate name size mmap =>
    cases step_allocate_cases (fun _ hlookup => h.address_ne_nullptr hlookup) hstep with
    | inl hshared =>
      obtain ⟨_, _, _, rfl⟩ := hshared
      rfl
    | inr hrest =>
      cases hrest with
      | inl hfailed =>
        obtain ⟨_, _, rfl⟩ := hfailed
        rfl
      | inr hcreated =>
        obtain ⟨_, _, _, _, _, rfl⟩ := hcreated
        rfl
  | deallocate name =>
    cases h.step_deallocate_cases hstep with
    | inl hnone =>
      obtain ⟨_, hzero, rfl⟩ := hnone
      exact ⟨fun hone => absurd (hzero.symm.trans hone) Nat.zero_ne_one, fun _ => rfl⟩
    | inr hfound =>
      cases hfound with
      | inl hlast =>
        obtain ⟨segment, hlookup, hone, rfl⟩ := hlast
        exact ⟨fun _ => ⟨segment, hlookup, rfl⟩, fun hne => absurd hone hne⟩
      | inr hmore =>
        obtain ⟨_, _, hmore, rfl⟩ := hmore
        exact ⟨fun hone => absurd hone (Nat.ne_of_gt hmore), fun _ => rfl⟩

/-- In every run the references are counted, and a mapping is unmapped once,
when the last one is given back. -/
theorem always_counted_along_unmapsAtZero (ops : List Op) :
    Always step Counted constructed ops ∧ Along step UnmapsAtZero constructed ops := by
  have htracked : Always step Tracked constructed ops :=
    always_of_step (fun _ _ _ h hstep => h.step hstep) ops constructed_tracked
  constructor
  · exact htracked.imp fun _ h => h.counted
  · apply along_of_step Tracked _ ops constructed_tracked
    intro client op after h hstep
    exact ⟨h.unmapsAtZero hstep, h.step hstep⟩

/-- An address that `allocate` answers has a mapping of the requested size. -/
def Sized (client : Client) (op : Op) (after : Client) : Prop :=
  match op with
  | .allocate name size mmap =>
    ∀ manager addr, client.manager.allocate name size mmap = some (manager, addr) → addr ≠ nullptr →
      ∃ mapping ∈ after.mapped, mapping.address = addr ∧ size ≤ mapping.size
  | .deallocate _ => True

/-- The segment that an allocation finds under its name is as long as it asks
for. -/
def Fits (client : Client) : Op → Prop
  | .allocate name size _ =>
    ∀ segment, client.manager.segments.lookup name = some segment → size ≤ segment.size
  | .deallocate _ => True

/-- There is one mapping at an address. -/
theorem Tracked.mapping_unique {client : Client} (h : client.Tracked) {mapping mapping' : Mapping}
    (hmem : mapping ∈ client.mapped) (hmem' : mapping' ∈ client.mapped)
    (heq : mapping.address = mapping'.address) : mapping = mapping' :=
  List.inj_on_of_nodup_map h.distinct (h.mapped_perm.mem_iff.mp hmem) (h.mapped_perm.mem_iff.mp hmem') heq

/-- The mapping of a segment is the one at its address. -/
theorem Tracked.mapping_at_iff {client : Client} (h : client.Tracked) {name : String}
    {segment : SharedSegment} (hlookup : client.manager.segments.lookup name = some segment) (size : Nat) :
    (∃ mapping ∈ client.mapped, mapping.address = segment.address ∧ size ≤ mapping.size) ↔
      size ≤ segment.size := by
  have hmem : mappingOf segment ∈ client.mapped :=
    h.mapped_perm.mem_iff.mpr (mem_mappings_of_lookup hlookup)
  constructor
  · rintro ⟨mapping, hmapping, haddress, hsize⟩
    rw [h.mapping_unique hmapping hmem haddress] at hsize
    exact hsize
  · intro hsize
    exact ⟨mappingOf segment, hmem, rfl, hsize⟩

theorem sized_iff {client after : Client} {name : String} {size addr : Nat} {mmap : Option Nat}
    (hanswer : client.manager.allocate name size mmap = some (after.manager, addr)) :
    client.Sized (.allocate name size mmap) after ↔
      (addr ≠ nullptr → ∃ mapping ∈ after.mapped, mapping.address = addr ∧ size ≤ mapping.size) := by
  constructor
  · exact fun h => h _ _ hanswer
  · intro h manager addr' hanswer'
    rw [hanswer, Option.some.injEq, Prod.mk.injEq] at hanswer'
    exact hanswer'.2 ▸ h

theorem Tracked.sized_iff_fits {client after : Client} (h : client.Tracked) {op : Op}
    (hstep : client.step op = some after) : client.Sized op after ↔ client.Fits op := by
  cases op with
  | deallocate name => exact Iff.rfl
  | allocate name size mmap =>
    have hafter := h.step hstep
    cases step_allocate_cases (fun _ hlookup => h.address_ne_nullptr hlookup) hstep with
    | inl hshared =>
      obtain ⟨segment, hlookup, hanswer, rfl⟩ := hshared
      have hat := hafter.mapping_at_iff (AList.lookup_insert _) size
      rw [sized_iff hanswer, imp_iff_right (h.address_ne_nullptr hlookup), hat]
      constructor
      · intro hsize segment' hlookup'
        rw [hlookup, Option.some.injEq] at hlookup'
        exact hlookup' ▸ hsize
      · exact fun hfits => hfits segment hlookup
    | inr hrest =>
      have hfits (hmem : name ∉ client.manager.segments) : client.Fits (.allocate name size mmap) := by
        intro segment hlookup
        rw [AList.lookup_eq_none.mpr hmem] at hlookup
        cases hlookup
      cases hrest with
      | inl hfailed =>
        obtain ⟨hmem, hanswer, rfl⟩ := hfailed
        exact iff_of_true ((sized_iff hanswer).mpr fun hnull => absurd rfl hnull) (hfits hmem)
      | inr hcreated =>
        obtain ⟨addr, hmem, hanswer, _, _, rfl⟩ := hcreated
        have hat := hafter.mapping_at_iff (AList.lookup_insert _) size
        exact iff_of_true ((sized_iff hanswer).mpr fun _ => hat.mpr (Nat.le_refl _)) (hfits hmem)

/-- The addresses answered in a run have mappings of the requested sizes exactly
when every allocation fits the segment that it finds. -/
theorem along_sized_iff_fits (ops : List Op) :
    Along step Sized constructed ops ↔ Guarded step Fits constructed ops := by
  apply along_iff_along Tracked _ _ ops constructed_tracked
  · intro client op after h hstep
    exact h.sized_iff_fits hstep
  · intro client op after h hstep _
    exact h.step hstep

/-- The second of two processes asks for two pages of the segment and shares its
only one. -/
theorem shared_segment_too_short :
    ¬ Along step Sized constructed [.allocate "a" 4096 (some 0x10000), .allocate "a" 8192 none] := by
  intro h
  obtain ⟨_, h⟩ := h _ rfl
  obtain ⟨hsized, _⟩ := h _ rfl
  obtain ⟨mapping, hmem, _, hsize⟩ := hsized _ _ rfl (by decide)
  obtain rfl := List.mem_singleton.mp hmem
  exact absurd hsize (by decide)

end Client

end Kernel.SharedMemoryManager
