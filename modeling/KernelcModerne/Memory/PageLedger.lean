import KernelcModerne.Memory.PageTranslations

open Transition

namespace Kernel.Memory.OptimizedUnifiedMemoryManager

/-- The addresses of the pages of a range. -/
def pageAddresses (virtualAddr pages : Nat) : List Nat :=
  (List.range pages).map (pageAddress virtualAddr)

/-- A page range never wraps onto itself. -/
theorem nodup_pageAddresses (virtualAddr : Nat) {pages : Nat} (hpages : pages ≤ 2 ^ 52) :
    (pageAddresses virtualAddr pages).Nodup := by
  apply List.Nodup.map_on _ List.nodup_range
  intro i hi j hj heq
  rw [List.mem_range] at hi hj
  simp only [pageAddress, Word64.add, Word64.mul, PAGE_SIZE] at heq
  omega

/-- The pages that `allocateMemory` asks the page allocator for, if it does. -/
def pagesRequested (manager : OptimizedUnifiedMemoryManager) (answers : Answers) (size : Nat) :
    Option Nat :=
  if size = 0 then none
  else if (manager.poolFor answers size).isSome then none
  else some (Word64.add (alignSize size) (PAGE_SIZE - 1) / PAGE_SIZE)

theorem pagesRequested_le {manager : OptimizedUnifiedMemoryManager} {answers : Answers} {size pages : Nat}
    (h : manager.pagesRequested answers size = some pages) : pages ≤ 2 ^ 52 := by
  simp only [pagesRequested] at h
  split at h
  · cases h
  · split at h
    · cases h
    · obtain rfl := Option.some.inj h
      have hlt := Word64.add_lt (alignSize size) (PAGE_SIZE - 1)
      unfold PAGE_SIZE at *
      omega

@[simp] theorem pageAddresses_succ (virtualAddr pages : Nat) : pageAddresses virtualAddr (pages + 1) =
    pageAddresses virtualAddr pages ++ [pageAddress virtualAddr pages] := by
  simp [pageAddresses, List.range_succ]

theorem mapPages_succ (manager : OptimizedUnifiedMemoryManager) (virtualAddr pages : Nat)
    (frame : Nat → Nat) : manager.mapPages virtualAddr (pages + 1) frame =
      (manager.mapPages virtualAddr pages frame).mapPage (pageAddress virtualAddr pages) (frame pages) := by
  simp [mapPages, List.range_succ]

theorem unmapPages_succ (manager : OptimizedUnifiedMemoryManager) (vAddr numPages : Nat) :
    manager.unmapPages vAddr (numPages + 1) =
      (manager.unmapPages vAddr numPages).unmapPage (pageAddress vAddr numPages) := by
  simp [unmapPages, List.range_succ]

/-- The mapping loop adds the pages of the range. -/
theorem mem_mapPages (manager : OptimizedUnifiedMemoryManager) (virtualAddr pages : Nat)
    (frame : Nat → Nat) (a : Nat) : a ∈ (manager.mapPages virtualAddr pages frame).pageTable ↔
      a ∈ pageAddresses virtualAddr pages ∨ a ∈ manager.pageTable := by
  induction pages with
  | zero => simp [mapPages, pageAddresses]
  | succ pages ih =>
    have htable : (manager.mapPages virtualAddr (pages + 1) frame).pageTable =
        (manager.mapPages virtualAddr pages frame).pageTable.insert
          (pageAddress virtualAddr pages) (frame pages) := by
      rw [mapPages_succ]
      rfl
    rw [htable, AList.mem_insert, ih, pageAddresses_succ, List.mem_append, List.mem_singleton]
    exact or_assoc.symm.trans (or_congr_left or_comm)

/-- The mapping loop leaves the records of allocations and of calls alone. -/
theorem mapPages_records (manager : OptimizedUnifiedMemoryManager) (virtualAddr pages : Nat)
    (frame : Nat → Nat) :
    (manager.mapPages virtualAddr pages frame).pageAllocations = manager.pageAllocations := by
  obtain ⟨_, _, hmapped⟩ := manager.mapPages_frame virtualAddr pages frame
  rw [hmapped]

/-- The unmapping loop takes out the pages of the range. -/
theorem lookup_unmapPages (manager : OptimizedUnifiedMemoryManager) (vAddr numPages a : Nat) :
    (manager.unmapPages vAddr numPages).pageTable.lookup a =
      if a ∈ pageAddresses vAddr numPages then none else manager.pageTable.lookup a := by
  induction numPages with
  | zero => simp [unmapPages, pageAddresses]
  | succ numPages ih =>
    have hmem : a ∈ pageAddresses vAddr (numPages + 1) ↔
        a = pageAddress vAddr numPages ∨ a ∈ pageAddresses vAddr numPages := by
      rw [pageAddresses_succ, List.mem_append, List.mem_singleton, or_comm]
    rw [unmapPages_succ, unmapPage_pageTable, ih, if_congr hmem rfl rfl]
    by_cases hlast : a = pageAddress vAddr numPages
    · rw [if_pos hlast, if_pos (.inl hlast)]
    · rw [if_neg hlast]
      simp only [hlast, false_or]

theorem mem_unmapPages (manager : OptimizedUnifiedMemoryManager) (vAddr numPages a : Nat) :
    a ∈ (manager.unmapPages vAddr numPages).pageTable ↔
      a ∉ pageAddresses vAddr numPages ∧ a ∈ manager.pageTable := by
  rw [← AList.lookup_isSome, lookup_unmapPages, ← AList.lookup_isSome]
  by_cases ha : a ∈ pageAddresses vAddr numPages
  · simp [ha]
  · simp [ha]

theorem unmapPage_freedFrames (manager : OptimizedUnifiedMemoryManager) (pageAddr : Nat) :
    (manager.unmapPage pageAddr).freedFrames =
      manager.freedFrames ++ (manager.pageTable.lookup pageAddr).toList := by
  simp only [unmapPage, invalidateTLBEntry]
  split <;> rename_i hlookup
  · rw [hlookup, Option.toList_some]
  · rw [hlookup, Option.toList_none, List.append_nil]

/-- The unmapping loop hands back the frame of each page, in their order. -/
theorem unmapPages_freedFrames (manager : OptimizedUnifiedMemoryManager) (vAddr : Nat) {numPages : Nat}
    (hnum : numPages ≤ 2 ^ 52) : (manager.unmapPages vAddr numPages).freedFrames =
      manager.freedFrames ++ (pageAddresses vAddr numPages).filterMap manager.pageTable.lookup := by
  induction numPages with
  | zero => simp [unmapPages, pageAddresses]
  | succ numPages ih =>
    have hnodup := nodup_pageAddresses vAddr hnum
    rw [pageAddresses_succ, List.nodup_append] at hnodup
    have hfresh : pageAddress vAddr numPages ∉ pageAddresses vAddr numPages :=
      fun hmem => hnodup.2.2 _ hmem _ List.mem_cons_self rfl
    have hone (found : Option Nat) (h : found = manager.pageTable.lookup (pageAddress vAddr numPages)) :
        found.toList = [pageAddress vAddr numPages].filterMap manager.pageTable.lookup := by
      rw [h]
      cases hlookup : manager.pageTable.lookup (pageAddress vAddr numPages) <;> simp [hlookup]
    rw [unmapPages_succ, unmapPage_freedFrames, ih (by omega), lookup_unmapPages, if_neg hfresh,
      pageAddresses_succ, List.filterMap_append, List.append_assoc, hone _ rfl]

/-- The unmapping loop leaves the other records of pages alone. -/
theorem unmapPages_records (manager : OptimizedUnifiedMemoryManager) (vAddr numPages : Nat) :
    (manager.unmapPages vAddr numPages).pageAllocations = manager.pageAllocations ∧
      (manager.unmapPages vAddr numPages).freedPages = manager.freedPages := by
  obtain ⟨_, _, _, hunmapped⟩ := manager.unmapPages_frame vAddr numPages
  rw [hunmapped]
  exact ⟨rfl, rfl⟩

/-- What `allocateMemory` does to the pages: it records and maps a range that
the page allocator answered, or it leaves them alone. -/
theorem allocateMemory_pages (manager : OptimizedUnifiedMemoryManager) (answers : Answers) (size : Nat) :
    (∃ pages, manager.pagesRequested answers size = some pages ∧ answers.pages ≠ 0 ∧
      (manager.allocateMemory answers size).1.pageAllocations =
        manager.pageAllocations.insert answers.pages ⟨pages⟩ ∧
      ∀ a, a ∈ (manager.allocateMemory answers size).1.pageTable ↔
        a ∈ pageAddresses answers.pages pages ∨ a ∈ manager.pageTable) ∨
    (∀ pages, manager.pagesRequested answers size = some pages → answers.pages = 0) ∧
      (manager.allocateMemory answers size).1.pageAllocations = manager.pageAllocations ∧
      (manager.allocateMemory answers size).1.pageTable = manager.pageTable := by
  by_cases hsize : size = 0
  · refine .inr ⟨fun pages h => ?_, ?_⟩
    · simp [pagesRequested, hsize] at h
    · simp [allocateMemory, hsize]
  · cases hpools : allocateInPools (alignSize size) answers.workload (List.finRange POOL_COUNT)
      manager.pools with
    | mk pools grant =>
      cases grant with
      | some block =>
        refine .inr ⟨fun pages h => ?_, ?_⟩
        · simp [pagesRequested, poolFor, hsize, hpools] at h
        · simp [allocateMemory, hsize, hpools]
      | none =>
        have hrequest : manager.pagesRequested answers size =
            some (Word64.add (alignSize size) (PAGE_SIZE - 1) / PAGE_SIZE) := by
          simp [pagesRequested, poolFor, hsize, hpools]
        have hafter : (manager.allocateMemory answers size).1 =
            ({ manager with pools }.allocatePages answers (alignSize size)).1 := by
          simp [allocateMemory, hsize, hpools]
        rw [hafter]
        by_cases hnull : answers.pages = 0
        · refine .inr ⟨fun _ _ => hnull, ?_⟩
          simp [allocatePages, hnull]
        · refine .inl ⟨_, hrequest, hnull, ?_, fun a => ?_⟩
          · simp only [allocatePages, if_neg hnull, mapPages_records]
          · simp only [allocatePages, if_neg hnull]
            exact mem_mapPages _ _ _ _ _

/-- What `freeMemory` does to the pages: it unmaps a recorded range and gives
it back, or it leaves them alone. -/
theorem freeMemory_pages (manager : OptimizedUnifiedMemoryManager) (ptr : Nat) :
    (∃ info, manager.poolAllocations.lookup ptr = none ∧
      manager.pageAllocations.lookup ptr = some info ∧
      (manager.freeMemory ptr).1.pageTable = (manager.unmapPages ptr info.numPages).pageTable ∧
      (manager.freeMemory ptr).1.freedFrames = (manager.unmapPages ptr info.numPages).freedFrames ∧
      (manager.freeMemory ptr).1.pageAllocations = manager.pageAllocations.erase ptr ∧
      (manager.freeMemory ptr).1.freedPages = manager.freedPages ++ [(ptr, info.numPages)]) ∨
    (manager.poolAllocations.lookup ptr ≠ none ∨ manager.pageAllocations.lookup ptr = none) ∧
      (manager.freeMemory ptr).1.pageTable = manager.pageTable ∧
      (manager.freeMemory ptr).1.pageAllocations = manager.pageAllocations ∧
      (manager.freeMemory ptr).1.freedFrames = manager.freedFrames ∧
      (manager.freeMemory ptr).1.freedPages = manager.freedPages := by
  cases hpool : manager.poolAllocations.lookup ptr with
  | some block =>
    obtain ⟨_, _, _, hfree⟩ := freeMemory_pool_frame hpool
    rw [hfree]
    exact .inr ⟨.inl (by simp), rfl, rfl, rfl, rfl⟩
  | none =>
    cases hpages : manager.pageAllocations.lookup ptr with
    | none =>
      refine .inr ⟨.inr rfl, ?_⟩
      simp [freeMemory, hpool, hpages]
    | some info =>
      obtain ⟨hallocations, hfreed⟩ := unmapPages_records manager ptr info.numPages
      refine .inl ⟨info, rfl, rfl, ?_⟩
      simp [freeMemory, hpool, hpages, hallocations, hfreed]

/-- The manager and the ranges that the page allocator has handed out to
`allocateMemory` and not got back through `freePages`. -/
structure PageClient where
  manager : OptimizedUnifiedMemoryManager
  handedOut : List (Nat × Nat)

namespace PageClient

def initialized (starts : Fin POOL_COUNT → Nat) (totalPages availablePages : Nat) : PageClient where
  manager := .initialized starts totalPages availablePages
  handedOut := []

/-- What the page allocator has handed out after it is asked for `requested`. -/
def lend (handedOut : List (Nat × Nat)) (answer : Nat) : Option Nat → List (Nat × Nat)
  | none => handedOut
  | some pages => if answer = 0 then handedOut else (answer, pages) :: handedOut

def step (client : PageClient) : Op → Option PageClient
  | .allocate size answers => some
    { manager := (client.manager.allocateMemory answers size.toNat).1
      handedOut :=
        lend client.handedOut answers.pages (client.manager.pagesRequested answers size.toNat) }
  | .free ptr =>
    let after := (client.manager.freeMemory ptr.toNat).1
    some
      { manager := after
        handedOut := client.handedOut.diff (after.freedPages.drop client.manager.freedPages.length) }

/-- What the page allocator promises: null, or pages apart from all it has
handed out; and null when no page is asked for. -/
def Fresh (client : PageClient) : Op → Prop
  | .allocate size answers => ∀ pages, client.manager.pagesRequested answers size.toNat = some pages →
    answers.pages = 0 ∨ pages ≠ 0 ∧ ∀ range ∈ client.handedOut,
      (pageAddresses answers.pages pages).Disjoint (pageAddresses range.1 range.2)
  | .free _ => True

/-- The page table translates exactly the pages of the recorded ranges. -/
def TableMatches (client : PageClient) : Prop :=
  ∀ a, a ∈ client.manager.pageTable ↔ ∃ virtualAddr info,
    client.manager.pageAllocations.lookup virtualAddr = some info ∧
      a ∈ pageAddresses virtualAddr info.numPages

/-- A `freeMemory` that frees a page range takes its pages out of the table,
hands their frames back, each once, and changes no other translation. Any other
`freeMemory` changes none and hands no frame back. -/
def FreesOwnPages (client : PageClient) (op : Op) (after : PageClient) : Prop :=
  match op with
  | .allocate _ _ => True
  | .free ptr =>
    (∀ info, client.manager.poolAllocations.lookup ptr.toNat = none →
      client.manager.pageAllocations.lookup ptr.toNat = some info →
      (∀ a, after.manager.pageTable.lookup a =
        if a ∈ pageAddresses ptr.toNat info.numPages then none else client.manager.pageTable.lookup a) ∧
      ∃ frames, frames.map some =
          (pageAddresses ptr.toNat info.numPages).map client.manager.pageTable.lookup ∧
        after.manager.freedFrames = client.manager.freedFrames ++ frames) ∧
    (client.manager.poolAllocations.lookup ptr.toNat ≠ none ∨
        client.manager.pageAllocations.lookup ptr.toNat = none →
      after.manager.pageTable = client.manager.pageTable ∧
        after.manager.freedFrames = client.manager.freedFrames)

/-- The manager records the ranges handed out, and the table translates their
pages. The ranges are not empty and share no page. -/
structure Consistent (client : PageClient) : Prop where
  recorded : client.handedOut.Perm
    (client.manager.pageAllocations.entries.map fun e => (e.1, e.2.numPages))
  translated : ∀ a, a ∈ client.manager.pageTable ↔
    ∃ range ∈ client.handedOut, a ∈ pageAddresses range.1 range.2
  size : ∀ range ∈ client.handedOut, range.2 ≠ 0 ∧ range.2 ≤ 2 ^ 52
  apart : client.handedOut.Pairwise fun a b =>
    (pageAddresses a.1 a.2).Disjoint (pageAddresses b.1 b.2)

theorem initialized_consistent (starts : Fin POOL_COUNT → Nat) (totalPages availablePages : Nat) :
    (initialized starts totalPages availablePages).Consistent where
  recorded := .refl _
  translated a := by simp [initialized, OptimizedUnifiedMemoryManager.initialized]
  size := by simp [initialized]
  apart := .nil

variable {client : PageClient}

theorem Consistent.mem_handedOut (h : client.Consistent) {virtualAddr pages : Nat} :
    (virtualAddr, pages) ∈ client.handedOut ↔
      client.manager.pageAllocations.lookup virtualAddr = some ⟨pages⟩ := by
  rw [h.recorded.mem_iff, List.mem_map, ← Option.mem_def, AList.mem_lookup_iff]
  constructor
  · intro hmem
    obtain ⟨⟨key, info⟩, he, heq⟩ := hmem
    obtain ⟨rfl, rfl⟩ := Prod.mk.inj heq
    exact he
  · intro hmem
    exact ⟨_, hmem, rfl⟩

theorem Consistent.tableMatches (h : client.Consistent) : client.TableMatches := by
  intro a
  rw [h.translated]
  constructor
  · intro hmem
    obtain ⟨range, hrange, ha⟩ := hmem
    exact ⟨range.1, ⟨range.2⟩, h.mem_handedOut.mp hrange, ha⟩
  · intro hmem
    obtain ⟨virtualAddr, info, hlookup, ha⟩ := hmem
    exact ⟨(virtualAddr, info.numPages), h.mem_handedOut.mpr hlookup, ha⟩

theorem mem_pageAddresses_zero {virtualAddr pages : Nat} (hpages : pages ≠ 0) :
    pageAddress virtualAddr 0 ∈ pageAddresses virtualAddr pages :=
  List.mem_map_of_mem (List.mem_range.mpr (Nat.pos_of_ne_zero hpages))

/-- A fresh range starts at an address that is not recorded yet. -/
theorem Consistent.notMem_of_fresh (h : client.Consistent) {virtualAddr pages : Nat} (hpages : pages ≠ 0)
    (hfresh : ∀ range ∈ client.handedOut,
      (pageAddresses virtualAddr pages).Disjoint (pageAddresses range.1 range.2)) :
    virtualAddr ∉ client.manager.pageAllocations := by
  intro hmem
  obtain ⟨info, hlookup⟩ := AList.exists_lookup_of_mem hmem
  have hrange := h.mem_handedOut.mpr hlookup
  exact hfresh _ hrange (mem_pageAddresses_zero hpages) (mem_pageAddresses_zero (h.size _ hrange).1)

/-- A call that leaves the pages alone. -/
theorem Consistent.of_eq (h : client.Consistent) {after : PageClient}
    (htable : after.manager.pageTable = client.manager.pageTable)
    (hallocations : after.manager.pageAllocations = client.manager.pageAllocations)
    (hledger : after.handedOut = client.handedOut) : after.Consistent where
  recorded := hledger ▸ hallocations ▸ h.recorded
  translated := hledger ▸ htable ▸ h.translated
  size := hledger ▸ h.size
  apart := hledger ▸ h.apart

theorem Consistent.allocate (h : client.Consistent) {size : UInt64} {answers : Answers}
    (hfresh : client.Fresh (.allocate size answers)) {after : PageClient}
    (hstep : client.step (.allocate size answers) = some after) : after.Consistent := by
  obtain rfl := Option.some.inj hstep
  cases client.manager.allocateMemory_pages answers size.toNat with
  | inr hkept =>
    obtain ⟨hnull, hallocations, htable⟩ := hkept
    refine h.of_eq htable hallocations ?_
    cases hrequest : client.manager.pagesRequested answers size.toNat with
    | none => rfl
    | some pages => exact if_pos (hnull pages hrequest)
  | inl hmapped =>
    obtain ⟨pages, hrequest, hanswer, hallocations, htable⟩ := hmapped
    cases hfresh pages hrequest with
    | inl hnull => exact absurd hnull hanswer
    | inr hrange =>
      obtain ⟨hpages, hdisjoint⟩ := hrange
      have hnew := h.notMem_of_fresh hpages hdisjoint
      have hledger : lend client.handedOut answers.pages
          (client.manager.pagesRequested answers size.toNat) =
            (answers.pages, pages) :: client.handedOut := by
        rw [hrequest]
        exact if_neg hanswer
      simp only [hledger]
      constructor
      · simp only [hallocations, AList.entries_insert_of_notMem hnew, List.map_cons]
        exact h.recorded.cons _
      · intro a
        rw [htable a, h.translated a]
        exact (List.exists_mem_cons_iff (fun range : Nat × Nat => a ∈ pageAddresses range.1 range.2)
          (answers.pages, pages) client.handedOut).symm
      · exact List.forall_mem_cons.mpr ⟨⟨hpages, pagesRequested_le hrequest⟩, h.size⟩
      · exact List.pairwise_cons.mpr ⟨hdisjoint, h.apart⟩

theorem Consistent.free (h : client.Consistent) {ptr : UInt64} {after : PageClient}
    (hstep : client.step (.free ptr) = some after) : after.Consistent := by
  obtain rfl := Option.some.inj hstep
  cases client.manager.freeMemory_pages ptr.toNat with
  | inr hkept =>
    obtain ⟨_, htable, hallocations, _, hfreed⟩ := hkept
    refine h.of_eq htable hallocations ?_
    simp only [hfreed, List.drop_length, List.diff_nil]
  | inl hfreed =>
    obtain ⟨info, _, hlookup, htable, _, hallocations, hcalls⟩ := hfreed
    have hledger : client.handedOut.diff
        ((client.manager.freeMemory ptr.toNat).1.freedPages.drop client.manager.freedPages.length) =
          client.handedOut.erase (ptr.toNat, info.numPages) := by
      rw [hcalls, List.drop_left, List.diff_cons, List.diff_nil]
    have hmem := h.mem_handedOut.mpr hlookup
    have hsplit := List.perm_cons_erase hmem
    have happart := (hsplit.pairwise_iff fun hdisjoint => List.Disjoint.symm hdisjoint).mp h.apart
    rw [List.pairwise_cons] at happart
    simp only [hledger]
    constructor
    · have hentries := (AList.entries_perm_of_lookup hlookup).map fun e => (e.1, e.2.numPages)
      have hboth := (hsplit.symm.trans h.recorded).trans hentries
      simp only [hallocations]
      exact hboth.cons_inv
    · intro a
      rw [htable, mem_unmapPages, h.translated]
      constructor
      · intro hother
        obtain ⟨hnot, range, hrange, ha⟩ := hother
        have hne : range ≠ (ptr.toNat, info.numPages) := by
          rintro rfl
          exact hnot ha
        exact ⟨range, (List.mem_erase_of_ne hne).mpr hrange, ha⟩
      · intro hother
        obtain ⟨range, hrange, ha⟩ := hother
        exact ⟨fun hown => happart.1 range hrange hown ha, range, List.mem_of_mem_erase hrange, ha⟩
    · exact fun range hrange => h.size range (List.mem_of_mem_erase hrange)
    · exact happart.2

/-- Every page of a range handed out has its frame. -/
theorem Consistent.map_some_filterMap (h : client.Consistent) {range : Nat × Nat}
    (hrange : range ∈ client.handedOut) :
    ((pageAddresses range.1 range.2).filterMap client.manager.pageTable.lookup).map some =
      (pageAddresses range.1 range.2).map client.manager.pageTable.lookup := by
  have hall : ∀ a ∈ pageAddresses range.1 range.2, (client.manager.pageTable.lookup a).isSome := by
    intro a ha
    exact AList.lookup_isSome.mpr ((h.translated a).mpr ⟨range, hrange, ha⟩)
  rw [List.map_filterMap, ← List.filterMap_eq_map]
  refine List.filterMap_congr fun a ha => ?_
  obtain ⟨frame, hframe⟩ := Option.isSome_iff_exists.mp (hall a ha)
  rw [Function.comp_apply, hframe, Option.map_some]

theorem Consistent.freesOwnPages (h : client.Consistent) {op : Op} {after : PageClient}
    (hstep : client.step op = some after) : client.FreesOwnPages op after := by
  cases op with
  | allocate size answers => trivial
  | free ptr =>
    obtain rfl := Option.some.inj hstep
    cases client.manager.freeMemory_pages ptr.toNat with
    | inr hkept =>
      obtain ⟨hwhich, htable, _, hframes, _⟩ := hkept
      refine ⟨fun info hpool hpages => ?_, fun _ => ⟨htable, hframes⟩⟩
      rw [hpool, hpages] at hwhich
      simp at hwhich
    | inl hfreed =>
      obtain ⟨info, hpool, hpages, htable, hframes, _⟩ := hfreed
      constructor
      · intro info' _ hpages'
        obtain rfl := Option.some.inj (hpages.symm.trans hpages')
        have hmem := h.mem_handedOut.mpr hpages
        refine ⟨fun a => ?_, _, h.map_some_filterMap hmem, ?_⟩
        · simp only [htable]
          exact lookup_unmapPages _ _ _ a
        · simp only [hframes]
          exact unmapPages_freedFrames _ _ (h.size _ hmem).2
      · intro hother
        rw [hpool, hpages] at hother
        simp at hother

/-- Over a page allocator that keeps its promise, the page table translates the
pages of the recorded ranges in every state, and every `freeMemory` frees the
pages of its own range and no others. -/
theorem pageTable_matches_pageAllocations (starts : Fin POOL_COUNT → Nat) (totalPages availablePages : Nat)
    (ops : List Op) (hfresh : Guarded step Fresh (initialized starts totalPages availablePages) ops) :
    Always step TableMatches (initialized starts totalPages availablePages) ops ∧
      Along step FreesOwnPages (initialized starts totalPages availablePages) ops := by
  have hinit := initialized_consistent starts totalPages availablePages
  have hkeep (client : PageClient) (op : Op) (after : PageClient) (h : client.Consistent)
      (hguard : client.Fresh op) (hstep : client.step op = some after) : after.Consistent := by
    cases op with
    | allocate size answers => exact h.allocate hguard hstep
    | free ptr => exact h.free hstep
  constructor
  · exact (always_of_guarded hkeep ops hinit hfresh).imp fun _ h => h.tableMatches
  · refine along_of_guarded Consistent (fun client op after h hguard hstep => ?_) ops hinit hfresh
    exact ⟨h.freesOwnPages hstep, hkeep client op after h hguard hstep⟩

/-- Two ranges side by side, the lower one freed. -/
theorem pageTable_matches_two_ranges :
    let ops := [.allocate 8192 ⟨.other 0, 0x10000, fun i => i⟩, .allocate 64 ⟨.other 0, 0x12000, fun i => i⟩,
      .free 0x10000]
    Always step TableMatches (initialized Client.spreadLayout.start 0 0) ops ∧
      Along step FreesOwnPages (initialized Client.spreadLayout.start 0 0) ops := by
  refine pageTable_matches_pageAllocations _ _ _ _ ?_
  intro first hfirst
  obtain rfl := Option.some.inj hfirst
  refine ⟨fun pages hpages => .inr ?_, ?_⟩
  · obtain rfl : 2 = pages := Option.some.inj hpages
    exact ⟨by decide, by simp [initialized]⟩
  · intro second hsecond
    obtain rfl := Option.some.inj hsecond
    refine ⟨fun pages hpages => .inr ?_, ?_⟩
    · obtain rfl : 1 = pages := Option.some.inj hpages
      refine ⟨by decide, fun range hrange => ?_⟩
      obtain rfl : range = (0x10000, 2) := List.mem_singleton.mp hrange
      exact List.disjoint_left.mpr (by decide)
    · exact fun third hthird => ⟨trivial, trivial⟩

end PageClient

end Kernel.Memory.OptimizedUnifiedMemoryManager
