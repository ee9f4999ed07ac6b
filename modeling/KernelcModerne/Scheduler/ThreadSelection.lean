import KernelcModerne.Scheduler.EnhancedSchedulerInvariant

namespace Kernel.EnhancedScheduler

variable (self : EnhancedScheduler)

/-- An active thread of the table. -/
def InUse (thread : Fin MAX_THREADS) : Prop :=
  thread.val < self.activeThreadCount ∧ (self.threads thread).isActive = true

def dynamicPriority (thread : Fin MAX_THREADS) : Nat := calculateDynamicPriority (self.threads thread)

/-- The division in `calculateDynamicPriority` is defined. -/
def Divides (thread : ThreadContext) : Prop := Word64.add thread.cpuTime 1 ≠ 0

/-- The loop is defined and leaves an active thread that no other one outranks. -/
def SelectsGreatest (split : LoopSplit) : Prop :=
  (∀ thread, self.InUse thread → Divides (self.threads thread)) ∧
    ∃ next, self.selectThread split = some (some next) ∧ self.InUse next ∧
      ∀ thread, self.InUse thread → self.dynamicPriority thread ≤ self.dynamicPriority next

/-- No active thread of the chunk has a greater priority. -/
def AtMost (chunk : List Nat) (priority : Nat) : Prop :=
  ∀ thread : Fin MAX_THREADS, thread.val ∈ chunk → (self.threads thread).isActive = true →
    self.dynamicPriority thread ≤ priority

/-- An active thread of the chunk that no other of its threads outranks. -/
structure Greatest (scheduler : EnhancedScheduler) (chunk : List Nat) (next : Fin MAX_THREADS) : Prop where
  mem : next.val ∈ chunk
  active : (scheduler.threads next).isActive = true
  atMost : scheduler.AtMost chunk (scheduler.dynamicPriority next)

variable {self} {chunk : List Nat}

theorem atMost_cons {thread : Fin MAX_THREADS} {priority : Nat}
    (hthread : (self.threads thread).isActive = true → self.dynamicPriority thread ≤ priority)
    (h : self.AtMost chunk priority) : self.AtMost (thread.val :: chunk) priority := by
  intro other hmem hactive
  cases List.mem_cons.mp hmem with
  | inl heq =>
    obtain rfl := Fin.ext heq
    exact hthread hactive
  | inr hrest => exact h other hrest hactive

theorem AtMost.append {rest : List Nat} {priority : Nat} (h : self.AtMost chunk priority)
    (hrest : self.AtMost rest priority) : self.AtMost (chunk ++ rest) priority := by
  intro thread hmem hactive
  cases List.mem_append.mp hmem with
  | inl hfirst => exact h thread hfirst hactive
  | inr hlast => exact hrest thread hlast hactive

/-- The body of the loop: the thread becomes the best where it outranks the best so far. -/
theorem consider_eq (thread : Fin MAX_THREADS) (best : Nat × Option (Fin MAX_THREADS)) :
    self.consider best thread.val =
      some (if (self.threads thread).isActive = true ∧ best.1 < self.dynamicPriority thread then
        (self.dynamicPriority thread, some thread) else best) := by
  have hindex : threadIndex thread.val = some thread := threadIndex_of_lt thread.isLt
  rw [consider, hindex, dynamicPriority]
  by_cases hactive : (self.threads thread).isActive = true
  · by_cases hlt : best.1 < calculateDynamicPriority (self.threads thread)
    · simp [hactive, hlt]
    · simp [hactive, hlt]
  · simp [hactive]

/-- A chunk leaves its maximum and `nextThread` alone, or makes them one of its greatest threads. -/
theorem foldlM_consider_greatest (self : EnhancedScheduler) (chunk : List Nat)
    (hchunk : ∀ i ∈ chunk, i < MAX_THREADS) (best : Nat × Option (Fin MAX_THREADS)) :
    ∃ after, chunk.foldlM self.consider best = some after ∧
      ((after = best ∧ self.AtMost chunk best.1) ∨
        ∃ next, self.Greatest chunk next ∧ best.1 < self.dynamicPriority next ∧
          after = (self.dynamicPriority next, some next)) := by
  induction chunk generalizing best with
  | nil => exact ⟨best, rfl, .inl ⟨rfl, fun _ hmem => absurd hmem List.not_mem_nil⟩⟩
  | cons i chunk ih =>
    rw [List.forall_mem_cons] at hchunk
    obtain ⟨thread, rfl⟩ : ∃ thread : Fin MAX_THREADS, thread.val = i := ⟨⟨i, hchunk.1⟩, rfl⟩
    rw [List.foldlM_cons, consider_eq, Option.bind_eq_bind, Option.bind_some]
    by_cases hbetter : (self.threads thread).isActive = true ∧ best.1 < self.dynamicPriority thread
    · rw [if_pos hbetter]
      obtain ⟨after, hafter, hcases⟩ := ih hchunk.2 (self.dynamicPriority thread, some thread)
      refine ⟨after, hafter, .inr ?_⟩
      cases hcases with
      | inl hsame =>
        exact ⟨thread, ⟨List.mem_cons_self, hbetter.1, atMost_cons (fun _ => Nat.le_refl _) hsame.2⟩,
          hbetter.2, hsame.1⟩
      | inr hnext =>
        obtain ⟨next, hgreatest, hlt, heq⟩ := hnext
        exact ⟨next, ⟨List.mem_cons_of_mem _ hgreatest.mem, hgreatest.active,
          atMost_cons (fun _ => hlt.le) hgreatest.atMost⟩, hbetter.2.trans hlt, heq⟩
    · rw [if_neg hbetter]
      have hle (hactive : (self.threads thread).isActive = true) : self.dynamicPriority thread ≤ best.1 :=
        Nat.not_lt.mp fun hlt => hbetter ⟨hactive, hlt⟩
      obtain ⟨after, hafter, hcases⟩ := ih hchunk.2 best
      refine ⟨after, hafter, ?_⟩
      cases hcases with
      | inl hsame => exact .inl ⟨hsame.1, atMost_cons hle hsame.2⟩
      | inr hnext =>
        obtain ⟨next, hgreatest, hlt, heq⟩ := hnext
        exact .inr ⟨next, ⟨List.mem_cons_of_mem _ hgreatest.mem, hgreatest.active,
          atMost_cons (fun hactive => (hle hactive).trans hlt.le) hgreatest.atMost⟩, hlt, heq⟩

/-- A chunk with an active thread of positive priority overwrites `nextThread`, whatever the chunks
before it have found. -/
theorem scanChunk_cases (self : EnhancedScheduler) {chunk : List Nat}
    (hchunk : ∀ i ∈ chunk, i < MAX_THREADS) (nextThread : Option (Fin MAX_THREADS)) :
    (self.scanChunk nextThread chunk = some nextThread ∧ self.AtMost chunk 0) ∨
      ∃ next, self.Greatest chunk next ∧ 0 < self.dynamicPriority next ∧
        self.scanChunk nextThread chunk = some (some next) := by
  obtain ⟨after, hafter, hcases⟩ := foldlM_consider_greatest self chunk hchunk (0, nextThread)
  rw [scanChunk, hafter]
  cases hcases with
  | inl hsame => exact .inl ⟨by rw [hsame.1]; rfl, hsame.2⟩
  | inr hnext =>
    obtain ⟨next, hgreatest, hlt, heq⟩ := hnext
    exact .inr ⟨next, hgreatest, hlt, by rw [heq]; rfl⟩

/-- The loop leaves an active thread of positive priority, unless there is none. -/
theorem foldlM_scanChunk_cases (self : EnhancedScheduler) (chunks : List (List Nat))
    (hchunks : ∀ i ∈ chunks.flatten, i < MAX_THREADS) (start : Option (Fin MAX_THREADS)) :
    (chunks.foldlM self.scanChunk start = some start ∧ self.AtMost chunks.flatten 0) ∨
      ∃ next : Fin MAX_THREADS, next.val ∈ chunks.flatten ∧ (self.threads next).isActive = true ∧
        0 < self.dynamicPriority next ∧ chunks.foldlM self.scanChunk start = some (some next) := by
  induction chunks generalizing start with
  | nil => exact .inl ⟨rfl, fun _ hmem => absurd hmem List.not_mem_nil⟩
  | cons chunk chunks ih =>
    have hchunk : ∀ i ∈ chunk, i < MAX_THREADS :=
      fun i hi => hchunks i (by rw [List.flatten_cons]; exact List.mem_append_left _ hi)
    have hrest : ∀ i ∈ chunks.flatten, i < MAX_THREADS :=
      fun i hi => hchunks i (by rw [List.flatten_cons]; exact List.mem_append_right _ hi)
    rw [List.foldlM_cons, List.flatten_cons]
    cases scanChunk_cases self hchunk start with
    | inl hsame =>
      rw [hsame.1, Option.bind_eq_bind, Option.bind_some]
      cases ih hrest start with
      | inl hnone => exact .inl ⟨hnone.1, hsame.2.append hnone.2⟩
      | inr hnext =>
        obtain ⟨next, hmem, hnext⟩ := hnext
        exact .inr ⟨next, List.mem_append_right _ hmem, hnext⟩
    | inr hfound =>
      obtain ⟨found, hgreatest, hpos, hscan⟩ := hfound
      rw [hscan, Option.bind_eq_bind, Option.bind_some]
      cases ih hrest (some found) with
      | inl hnone => exact .inr ⟨found, List.mem_append_left _ hgreatest.mem, hgreatest.active, hpos, hnone.1⟩
      | inr hnext =>
        obtain ⟨next, hmem, hnext⟩ := hnext
        exact .inr ⟨next, List.mem_append_right _ hmem, hnext⟩

theorem mem_chunks (split : LoopSplit) {n i : Nat} : i ∈ (split.chunks n).flatten ↔ i < n := by
  rw [(split.perm n).mem_iff, List.mem_range]

theorem selectThread_cases (hcount : self.activeThreadCount ≤ MAX_THREADS) (split : LoopSplit) :
    (self.selectThread split = some none ∧ ∀ thread, self.InUse thread → self.dynamicPriority thread = 0) ∨
      ∃ next, self.selectThread split = some (some next) ∧ self.InUse next ∧
        0 < self.dynamicPriority next := by
  have hbound : ∀ i ∈ (split.chunks self.activeThreadCount).flatten, i < MAX_THREADS :=
    fun i hi => ((mem_chunks split).mp hi).trans_le hcount
  cases foldlM_scanChunk_cases self _ hbound none with
  | inl hnone =>
    refine .inl ⟨hnone.1, fun thread hthread => Nat.le_zero.mp ?_⟩
    exact hnone.2 thread ((mem_chunks split).mpr hthread.1) hthread.2
  | inr hnext =>
    obtain ⟨next, hmem, hactive, hpos, hselect⟩ := hnext
    exact .inr ⟨next, hselect, ⟨(mem_chunks split).mp hmem, hactive⟩, hpos⟩

/-- The sequential loop leaves one of the greatest threads, if any has a positive priority. -/
theorem selectsGreatest_sequential (hcount : self.activeThreadCount ≤ MAX_THREADS)
    (hdivides : ∀ thread, self.InUse thread → Divides (self.threads thread))
    (hpos : ∃ thread, self.InUse thread ∧ 0 < self.dynamicPriority thread) :
    self.SelectsGreatest .sequential := by
  have hbound : ∀ i ∈ List.range self.activeThreadCount, i < MAX_THREADS :=
    fun i hi => (List.mem_range.mp hi).trans_le hcount
  have hselect : self.selectThread .sequential = self.scanChunk none (List.range self.activeThreadCount) := by
    simp [selectThread, LoopSplit.sequential]
  refine ⟨hdivides, ?_⟩
  rw [hselect]
  cases scanChunk_cases self hbound none with
  | inl hnone =>
    obtain ⟨thread, hthread, hpositive⟩ := hpos
    have hle := hnone.2 thread (List.mem_range.mpr hthread.1) hthread.2
    omega
  | inr hnext =>
    obtain ⟨next, hgreatest, _, hscan⟩ := hnext
    exact ⟨next, hscan, ⟨List.mem_range.mp hgreatest.mem, hgreatest.active⟩,
      fun thread hthread => hgreatest.atMost thread (List.mem_range.mpr hthread.1) hthread.2⟩

/-- A chunk for each index, where that of `last` runs at the end. -/
def LoopSplit.endingWith (last : Nat) : LoopSplit where
  chunks n := if last < n then ((List.range n).erase last ++ [last]).map fun i => [i] else [List.range n]
  perm n := by
    by_cases hlast : last < n
    · rw [if_pos hlast, ← List.flatMap_def, List.flatMap_singleton']
      have hmem : last ∈ List.range n := List.mem_range.mpr hlast
      exact (List.perm_append_singleton _ _).trans (List.perm_cons_erase hmem).symm
    · rw [if_neg hlast, List.flatten_singleton]

/-- The last chunk has the last word. -/
theorem selectThread_endingWith (hcount : self.activeThreadCount ≤ MAX_THREADS) {last : Fin MAX_THREADS}
    (hlast : self.InUse last) (hpos : 0 < self.dynamicPriority last) :
    self.selectThread (.endingWith last.val) = some (some last) := by
  have hchunks : (LoopSplit.endingWith last.val).chunks self.activeThreadCount =
      ((List.range self.activeThreadCount).erase last.val).map (fun i => [i]) ++ [[last.val]] := by
    rw [LoopSplit.endingWith]
    dsimp only
    rw [if_pos hlast.1, List.map_append, List.map_singleton]
  have hbound : ∀ i ∈ (((List.range self.activeThreadCount).erase last.val).map fun i => [i]).flatten,
      i < MAX_THREADS := by
    intro i hi
    rw [← List.flatMap_def, List.flatMap_singleton'] at hi
    exact (List.mem_range.mp (List.mem_of_mem_erase hi)).trans_le hcount
  have hlater (found : Option (Fin MAX_THREADS)) :
      [[last.val]].foldlM self.scanChunk found = some (some last) := by
    have hbound' : ∀ i ∈ [last.val], i < MAX_THREADS := fun i hi => List.mem_singleton.mp hi ▸ last.isLt
    have hscan : self.scanChunk found [last.val] = some (some last) := by
      cases scanChunk_cases self hbound' found with
      | inl hsame =>
        have hle := hsame.2 last List.mem_cons_self hlast.2
        omega
      | inr hnext =>
        obtain ⟨next, hgreatest, _, hscan⟩ := hnext
        rw [hscan, Fin.ext (List.mem_singleton.mp hgreatest.mem)]
    simp [hscan]
  rw [selectThread, hchunks, List.foldlM_append]
  cases foldlM_scanChunk_cases self _ hbound none with
  | inl hnone =>
    rw [hnone.1]
    exact hlater none
  | inr hnext =>
    obtain ⟨next, _, _, _, hfold⟩ := hnext
    rw [hfold]
    exact hlater (some next)

/-- Some active thread has a positive priority, and all that have one have the same. -/
structure OnePriority (scheduler : EnhancedScheduler) : Prop where
  divides : ∀ thread, scheduler.InUse thread → Divides (scheduler.threads thread)
  positive : ∃ thread, scheduler.InUse thread ∧ 0 < scheduler.dynamicPriority thread
  equal : ∀ thread other, scheduler.InUse thread → scheduler.InUse other →
    0 < scheduler.dynamicPriority thread → 0 < scheduler.dynamicPriority other →
      scheduler.dynamicPriority thread = scheduler.dynamicPriority other

/-- However the loop is split, it leaves one of the greatest threads exactly when the active threads
have one priority, those without any left aside. -/
theorem selectsGreatest_iff (self : EnhancedScheduler) (hcount : self.activeThreadCount ≤ MAX_THREADS) :
    (∀ split, self.SelectsGreatest split) ↔ self.OnePriority := by
  constructor
  · intro h
    refine ⟨(h .sequential).1, ?_, ?_⟩
    · obtain ⟨_, next, hselect, _⟩ := h .sequential
      cases selectThread_cases hcount .sequential with
      | inl hnone =>
        rw [hnone.1] at hselect
        cases hselect
      | inr hnext =>
        obtain ⟨next, _, hnext, hpos⟩ := hnext
        exact ⟨next, hnext, hpos⟩
    · -- of two priorities either may run last
      have hle (thread other : Fin MAX_THREADS) (hthread : self.InUse thread) (hother : self.InUse other)
          (hpos : 0 < self.dynamicPriority other) :
          self.dynamicPriority thread ≤ self.dynamicPriority other := by
        obtain ⟨_, next, hselect, _, hgreatest⟩ := h (.endingWith other.val)
        rw [selectThread_endingWith hcount hother hpos] at hselect
        obtain rfl := Option.some.inj (Option.some.inj hselect)
        exact hgreatest thread hthread
      exact fun thread other hthread hother hpos hpos' =>
        Nat.le_antisymm (hle thread other hthread hother hpos') (hle other thread hother hthread hpos)
  · intro h split
    refine ⟨h.divides, ?_⟩
    cases selectThread_cases hcount split with
    | inl hnone =>
      obtain ⟨thread, hthread, hpos⟩ := h.positive
      have hzero := hnone.2 thread hthread
      omega
    | inr hnext =>
      obtain ⟨next, hselect, hnext, hpos⟩ := hnext
      refine ⟨next, hselect, hnext, fun thread hthread => ?_⟩
      by_cases hzero : self.dynamicPriority thread = 0
      · omega
      · exact (h.equal thread next hthread hnext (Nat.pos_of_ne_zero hzero) hpos).le

/-- Two active threads that have not run yet. -/
def twoThreads (first second : Nat) : EnhancedScheduler :=
  { constructed (fun i => ⟨if i = 0 then first else second, 0, false, true, ⟨i.val⟩⟩) with
    activeThreadCount := 2 }

theorem selectsGreatest_iff_twoThreads : (twoThreads 5 5).activeThreadCount ≤ MAX_THREADS ∧
    ((∀ split, (twoThreads 5 5).SelectsGreatest split) ↔ (twoThreads 5 5).OnePriority) :=
  ⟨by decide, selectsGreatest_iff (twoThreads 5 5) (by decide)⟩

/-- The chunk of the second thread runs last and overrules that of the first. -/
theorem lower_priority_selected : ¬ (twoThreads 9 1).SelectsGreatest (.endingWith 1) := by
  rintro ⟨_, next, hselect, _, hgreatest⟩
  have hsecond : (twoThreads 9 1).selectThread (.endingWith 1) = some (some 1) := by decide
  rw [hsecond] at hselect
  obtain rfl := Option.some.inj (Option.some.inj hselect)
  exact absurd (hgreatest 0 ⟨by decide, rfl⟩) (by decide)

end Kernel.EnhancedScheduler
