import KernelcModerne.Scheduler.EnhancedScheduler

namespace Kernel.EnhancedScheduler

/-- `start` and `stop` change the scheduler's own state and nothing else. -/
theorem start_eq (self : EnhancedScheduler) : self.start = { self with state := .RUNNING } := by
  unfold start
  split
  case isTrue hstate => rw [← hstate]
  case isFalse => rfl

theorem stop_eq (self : EnhancedScheduler) : self.stop = { self with state := self.stop.state } := by
  unfold stop
  split <;> rfl

theorem threadIndex_of_lt {i : Nat} (h : i < MAX_THREADS) : threadIndex i = some ⟨i, h⟩ := dif_pos h

theorem getContext_injective : Function.Injective getContext := fun _ _ h => congrArg ContextPtr.process h

theorem stateOf_setState (self : EnhancedScheduler) (process other : ProcessPtr) (state : ProcessState) :
    (self.setState process state).stateOf other =
      if process = other then (self.stateOf other).map fun _ => state else self.stateOf other := by
  simp only [stateOf, setState, List.getElem?_modify]
  by_cases h : process = other
  · simp only [if_pos h, Option.map_eq_map, Option.map_map]
    rfl
  · simp only [if_neg h, Option.map_eq_map, Option.map_id']

theorem stateOf_isSome {self : EnhancedScheduler} {process : ProcessPtr} :
    (self.stateOf process).isSome ↔ process < self.processes.length := by
  rw [stateOf, Option.isSome_map, isSome_getElem?]

theorem lt_of_stateOf {self : EnhancedScheduler} {process : ProcessPtr} {state : ProcessState}
    (h : self.stateOf process = some state) : process < self.processes.length := by
  rw [← stateOf_isSome, h]
  rfl

@[simp] theorem length_setState (self : EnhancedScheduler) (process : ProcessPtr) (state : ProcessState) :
    (self.setState process state).processes.length = self.processes.length :=
  List.length_modify _ _ _

/-- The id of a process. -/
def idOf (self : EnhancedScheduler) (process : ProcessPtr) : Option Nat :=
  (self.processes[process]?).map Process.id

@[simp] theorem idOf_setState (self : EnhancedScheduler) (process other : ProcessPtr) (state : ProcessState) :
    (self.setState process state).idOf other = self.idOf other := by
  simp only [idOf, setState, List.getElem?_modify, Option.map_eq_map, Option.map_map]
  congr 1
  funext p
  by_cases h : process = other
  · simp only [Function.comp_apply, if_pos h]
  · simp only [Function.comp_apply, if_neg h]

theorem findProcess_getContext {self : EnhancedScheduler} {process : ProcessPtr}
    (h : process < self.processes.length) : self.findProcess (getContext process) = some process := by
  rw [findProcess, List.find?_range_eq_some]
  refine ⟨decide_eq_true rfl, List.mem_range.mpr h, fun other hother => ?_⟩
  have hne := getContext_injective.ne (Nat.ne_of_lt hother)
  simpa using hne

/-- The thread table mirrors the process list: thread `i` is the main thread of
process `i`, and it is inactive once the process is terminated. The current
thread is that of the current process, and every other process waits or is
terminated. -/
structure Tracked (scheduler : EnhancedScheduler) : Prop where
  count : scheduler.activeThreadCount = scheduler.processes.length
  le : scheduler.activeThreadCount ≤ MAX_THREADS
  ids : ∀ process < scheduler.processes.length, scheduler.idOf process = some (process + 1)
  context : ∀ thread : Fin MAX_THREADS, thread.val < scheduler.activeThreadCount →
    (scheduler.threads thread).processContext = getContext thread.val
  boosted : ∀ thread : Fin MAX_THREADS, thread.val < scheduler.activeThreadCount →
    0 < calculateDynamicPriority (scheduler.threads thread)
  inactive : ∀ thread : Fin MAX_THREADS, scheduler.stateOf thread.val = some .TERMINATED →
    (scheduler.threads thread).isActive = false
  current : scheduler.currentThread.map Fin.val = scheduler.currentProcess
  current_lt : ∀ process, scheduler.currentProcess = some process → process < scheduler.processes.length
  waiting : ∀ process < scheduler.processes.length, scheduler.currentProcess ≠ some process →
    scheduler.stateOf process = some .READY ∨ scheduler.stateOf process = some .TERMINATED

/-- No two processes have one id. -/
theorem Tracked.eq_of_idOf {self : EnhancedScheduler} (h : self.Tracked) {process other : ProcessPtr}
    {pid : Nat} (hprocess : self.idOf process = some pid) (hother : self.idOf other = some pid) :
    process = other := by
  have hlt {p : ProcessPtr} (hp : self.idOf p = some pid) : p < self.processes.length := by
    obtain ⟨found, hfound, _⟩ := Option.map_eq_some_iff.mp hp
    exact (List.getElem?_eq_some_iff.mp hfound).1
  have hpid := hprocess.symm.trans (h.ids process (hlt hprocess))
  have hpid' := hother.symm.trans (h.ids other (hlt hother))
  exact Nat.succ_injective (Option.some.inj (hpid.symm.trans hpid'))

theorem constructed_tracked (threads : Fin MAX_THREADS → ThreadContext) :
    (constructed threads).Tracked where
  count := rfl
  le := Nat.zero_le _
  ids := by simp [constructed]
  context _ h := absurd h (Nat.not_lt_zero _)
  boosted _ h := absurd h (Nat.not_lt_zero _)
  inactive := by simp [constructed, stateOf]
  current := rfl
  current_lt := by simp [constructed]
  waiting _ h := absurd h (Nat.not_lt_zero _)

/-- Only the current process may be running. -/
theorem Tracked.running {self : EnhancedScheduler} (h : self.Tracked) {process : ProcessPtr}
    (hrunning : self.stateOf process = some .RUNNING) : self.currentProcess = some process := by
  by_contra hother
  cases h.waiting process (lt_of_stateOf hrunning) hother with
  | inl hready => simp [hready] at hrunning
  | inr hterminated => simp [hterminated] at hrunning

/-- A process whose main thread is active is not terminated. -/
theorem Tracked.not_terminated {self : EnhancedScheduler} (h : self.Tracked) {thread : Fin MAX_THREADS}
    (hactive : (self.threads thread).isActive) : self.stateOf thread.val ≠ some .TERMINATED := by
  intro hterminated
  rw [h.inactive thread hterminated] at hactive
  cases hactive

/-- The current process is that of the current thread. -/
theorem Tracked.currentProcess_eq_iff {self : EnhancedScheduler} (h : self.Tracked)
    {thread : Fin MAX_THREADS} :
    self.currentProcess = some thread.val ↔ self.currentThread = some thread := by
  rw [← h.current, Option.map_eq_some_iff]
  constructor
  · rintro ⟨current, hcurrent, hval⟩
    rw [hcurrent, Fin.ext hval]
  · intro hcurrent
    exact ⟨thread, hcurrent, rfl⟩

/-- A thread with an active main thread is in the table. -/
def HasActive (self : EnhancedScheduler) : Prop :=
  ∃ thread : Fin MAX_THREADS, thread.val < self.activeThreadCount ∧ (self.threads thread).isActive

/-- A chosen thread is in use and active. -/
def Choice (self : EnhancedScheduler) (next : Option (Fin MAX_THREADS)) : Prop :=
  ∀ t, next = some t → t.val < self.activeThreadCount ∧ (self.threads t).isActive

/-- The body of the selection loop keeps a choice, and makes one at an active
thread. A private maximum above zero means that a thread has been chosen. -/
private theorem consider_spec {self : EnhancedScheduler} (h : self.Tracked) {thread : Fin MAX_THREADS}
    (hi : thread.val < self.activeThreadCount) {best : Nat × Option (Fin MAX_THREADS)}
    (hchosen : 0 < best.1 → best.2.isSome) (hbest : self.Choice best.2) :
    ∃ next, self.consider best thread.val = some next ∧ (best.2.isSome → next.2.isSome) ∧
      (0 < next.1 → next.2.isSome) ∧ self.Choice next.2 ∧
      ((self.threads thread).isActive → next.2.isSome) := by
  simp only [consider, threadIndex_of_lt thread.isLt, Option.bind_eq_bind, Option.bind_some]
  by_cases hactive : (self.threads thread).isActive
  · rw [if_pos hactive]
    by_cases hgreater : calculateDynamicPriority (self.threads thread) > best.1
    · rw [if_pos hgreater]
      refine ⟨_, rfl, fun _ => rfl, fun _ => rfl, ?_, fun _ => rfl⟩
      intro t ht
      obtain rfl := Option.some.inj ht
      exact ⟨hi, hactive⟩
    · rw [if_neg hgreater]
      have hboosted := h.boosted thread hi
      exact ⟨best, rfl, id, hchosen, hbest, fun _ => hchosen (by omega)⟩
  · rw [if_neg hactive]
    exact ⟨best, rfl, id, hchosen, hbest, fun hyes => absurd hyes hactive⟩

/-- What one chunk leaves in `nextThread`. -/
private theorem foldlM_consider {self : EnhancedScheduler} (h : self.Tracked) (chunk : List Nat)
    (hchunk : ∀ i ∈ chunk, i < self.activeThreadCount) (best : Nat × Option (Fin MAX_THREADS))
    (hchosen : 0 < best.1 → best.2.isSome) (hbest : self.Choice best.2) :
    ∃ after, chunk.foldlM self.consider best = some after ∧ (best.2.isSome → after.2.isSome) ∧
      self.Choice after.2 ∧
      ∀ t : Fin MAX_THREADS, t.val ∈ chunk → (self.threads t).isActive → after.2.isSome := by
  induction chunk generalizing best with
  | nil => exact ⟨best, rfl, id, hbest, fun _ hmem => absurd hmem List.not_mem_nil⟩
  | cons i chunk ih =>
    have hi := hchunk i List.mem_cons_self
    let thread : Fin MAX_THREADS := ⟨i, hi.trans_le h.le⟩
    obtain ⟨next, hnext, hkeep, hchosen', hbest', hmade⟩ :=
      consider_spec h (show thread.val < self.activeThreadCount from hi) hchosen hbest
    obtain ⟨after, hafter, hkeep', hsound, hcomplete⟩ :=
      ih (fun j hj => hchunk j (List.mem_cons_of_mem i hj)) next hchosen' hbest'
    refine ⟨after, ?_, fun hsome => hkeep' (hkeep hsome), hsound, ?_⟩
    · rw [List.foldlM_cons, hnext]
      exact hafter
    · intro t hmem hactive
      cases List.mem_cons.mp hmem with
      | inl heq =>
        obtain rfl : t = thread := Fin.ext heq
        exact hkeep' (hmade hactive)
      | inr hmem => exact hcomplete t hmem hactive

/-- What all chunks leave in `nextThread`. -/
private theorem foldlM_scanChunk {self : EnhancedScheduler} (h : self.Tracked) (chunks : List (List Nat))
    (hchunks : ∀ i ∈ chunks.flatten, i < self.activeThreadCount) (start : Option (Fin MAX_THREADS))
    (hstart : self.Choice start) :
    ∃ next, chunks.foldlM self.scanChunk start = some next ∧ (start.isSome → next.isSome) ∧
      self.Choice next ∧
      ∀ t : Fin MAX_THREADS, t.val ∈ chunks.flatten → (self.threads t).isActive → next.isSome := by
  induction chunks generalizing start with
  | nil => exact ⟨start, rfl, id, hstart, fun _ hmem => absurd hmem List.not_mem_nil⟩
  | cons chunk chunks ih =>
    rw [List.flatten_cons] at hchunks
    obtain ⟨best, hbest, hkeep, hsound, hcomplete⟩ := foldlM_consider h chunk
      (fun i hi => hchunks i (List.mem_append_left _ hi)) (0, start) (fun h0 => absurd h0 (Nat.lt_irrefl 0))
      hstart
    obtain ⟨next, hnext, hkeep', hsound', hcomplete'⟩ :=
      ih (fun i hi => hchunks i (List.mem_append_right _ hi)) best.2 hsound
    refine ⟨next, ?_, fun hsome => hkeep' (hkeep hsome), hsound', ?_⟩
    · rw [List.foldlM_cons, scanChunk, hbest]
      exact hnext
    · intro t hmem hactive
      cases List.mem_append.mp (List.flatten_cons ▸ hmem) with
      | inl hmem => exact hkeep' (hcomplete t hmem hactive)
      | inr hmem => exact hcomplete' t hmem hactive

/-- Whatever the chunks, the selection loop finds an active thread if there is
one. -/
theorem Tracked.selectThread_spec {self : EnhancedScheduler} (h : self.Tracked) (split : LoopSplit) :
    ∃ next, self.selectThread split = some next ∧ self.Choice next ∧ (next = none ↔ ¬ self.HasActive) := by
  have hmem (i : Nat) : i ∈ (split.chunks self.activeThreadCount).flatten ↔ i < self.activeThreadCount := by
    rw [(split.perm _).mem_iff, List.mem_range]
  obtain ⟨next, hnext, _, hsound, hcomplete⟩ :=
    foldlM_scanChunk h (split.chunks self.activeThreadCount) (fun i hi => (hmem i).mp hi) none nofun
  refine ⟨next, hnext, hsound, ?_⟩
  constructor
  · rintro rfl ⟨t, hlt, hactive⟩
    have hsome := hcomplete t ((hmem t).mpr hlt) hactive
    cases hsome
  · intro hno
    cases next with
    | none => rfl
    | some t => exact absurd ⟨t, hsound t rfl⟩ hno

/-- What `schedule` does: nothing, when stopped, when no thread is active or when
the current one is chosen; else it switches to the process of another active
thread. -/
theorem Tracked.schedule_cases {self : EnhancedScheduler} (h : self.Tracked) (split : LoopSplit) :
    ∃ after, self.schedule split = some after ∧
      ((after = self ∧ (self.state ≠ .RUNNING ∨ ¬ self.HasActive ∨
          ∃ t, self.currentThread = some t ∧ (self.threads t).isActive)) ∨
        self.state = .RUNNING ∧ ∃ t : Fin MAX_THREADS, t.val < self.activeThreadCount ∧
          (self.threads t).isActive ∧ self.currentProcess ≠ some t.val ∧
          after = self.switchTo t.val t) := by
  by_cases hstate : self.state = .RUNNING
  · obtain ⟨next, hselect, hsound, hnone⟩ := h.selectThread_spec split
    simp only [schedule, ne_eq, hstate, not_true_eq_false, if_false, hselect, Option.bind_eq_bind,
      Option.bind_some]
    cases next with
    | none => exact ⟨self, rfl, .inl ⟨rfl, .inr (.inl (hnone.mp rfl))⟩⟩
    | some t =>
      obtain ⟨hlt, hactive⟩ := hsound t rfl
      by_cases hcurrent : self.currentThread = some t
      · simp only [hcurrent, if_true]
        exact ⟨self, rfl, .inl ⟨rfl, .inr (.inr ⟨t, rfl, hactive⟩)⟩⟩
      · -- the process of another thread is another process
        have hother : self.currentProcess ≠ some t.val := mt h.currentProcess_eq_iff.mp hcurrent
        have hfind : self.findProcess (self.threads t).processContext = some t.val := by
          rw [h.context t hlt]
          exact findProcess_getContext (h.count ▸ hlt)
        simp only [if_neg (Ne.symm hcurrent), hfind, if_neg (Ne.symm hother)]
        exact ⟨_, rfl, .inr ⟨trivial, t, hlt, hactive, hother, rfl⟩⟩
  · rw [schedule, if_pos hstate]
    exact ⟨self, rfl, .inl ⟨rfl, .inl hstate⟩⟩

theorem Tracked.schedule_inv {self after : EnhancedScheduler} (h : self.Tracked) {split : LoopSplit}
    (hschedule : self.schedule split = some after) :
    (after = self ∧ (self.state ≠ .RUNNING ∨ ¬ self.HasActive ∨
        ∃ t, self.currentThread = some t ∧ (self.threads t).isActive)) ∨
      self.state = .RUNNING ∧ ∃ t : Fin MAX_THREADS, t.val < self.activeThreadCount ∧
        (self.threads t).isActive ∧ self.currentProcess ≠ some t.val ∧
        after = self.switchTo t.val t := by
  obtain ⟨after', hafter, hcases⟩ := h.schedule_cases split
  obtain rfl : after' = after := Option.some.inj (hafter.symm.trans hschedule)
  exact hcases

/-- The clean-up loop over the first `n` threads reaches the main thread of the
process and no other. -/
private theorem Tracked.foldlM_deactivate {self : EnhancedScheduler} (h : self.Tracked)
    (thread : Fin MAX_THREADS) {n : Nat} (hn : n ≤ self.activeThreadCount) :
    (List.range n).foldlM (deactivate thread.val) self.threads =
      some (if thread.val < n then
        Function.update self.threads thread { self.threads thread with isActive := false }
      else self.threads) := by
  induction n with
  | zero => rfl
  | succ n ih =>
    have hlt : n < MAX_THREADS := hn.trans h.le
    let last : Fin MAX_THREADS := ⟨n, hlt⟩
    have hcontext := h.context last hn
    rw [List.range_succ, List.foldlM_append, ih (by omega)]
    simp only [Option.bind_eq_bind, Option.bind_some, List.foldlM_cons, List.foldlM_nil, deactivate,
      threadIndex_of_lt hlt]
    by_cases hlast : thread = last
    · subst hlast
      simp only [Nat.lt_irrefl, if_false, Nat.lt_succ_self, if_true, last, hcontext]
      rfl
    · have hval : thread.val ≠ n := fun heq => hlast (Fin.ext heq)
      have hne : getContext last.val ≠ getContext thread.val := getContext_injective.ne (Ne.symm hval)
      have hsame : (if thread.val < n then
          Function.update self.threads thread { self.threads thread with isActive := false }
          else self.threads) last = self.threads last := by
        split
        · exact Function.update_of_ne (Ne.symm hlast) _ _
        · rfl
      have hiff : thread.val < n + 1 ↔ thread.val < n := by omega
      simp only [last] at hsame hcontext hne
      rw [hsame, hcontext, if_neg hne]
      simp only [hiff, Option.pure_def, Option.bind_some]

/-- What `terminateProcess` does: nothing for an unknown pid, else the process
becomes terminated and its main thread inactive. -/
theorem Tracked.terminateProcess_cases {self : EnhancedScheduler} (h : self.Tracked) (pid : Nat) :
    ∃ after, self.terminateProcess pid = some after ∧
      ((after = self ∧ ∀ process, self.idOf process ≠ some pid) ∨
        ∃ t : Fin MAX_THREADS, t.val < self.activeThreadCount ∧ self.idOf t.val = some pid ∧
          after = { self.setState t.val .TERMINATED with
            threads := Function.update self.threads t { self.threads t with isActive := false } }) := by
  unfold terminateProcess
  cases hfind : self.processes.findIdx? fun process => process.id = pid with
  | none =>
    refine ⟨self, rfl, .inl ⟨rfl, fun process hid => ?_⟩⟩
    obtain ⟨p, hp, hpid⟩ := Option.map_eq_some_iff.mp hid
    have hno := List.findIdx?_eq_none_iff.mp hfind p (List.mem_of_getElem? hp)
    simp [hpid] at hno
  | some process =>
    obtain ⟨hlt, hpid, _⟩ := List.findIdx?_eq_some_iff_getElem.mp hfind
    have hcount : process < self.activeThreadCount := h.count ▸ hlt
    let thread : Fin MAX_THREADS := ⟨process, hcount.trans_le h.le⟩
    have hloop := h.foldlM_deactivate thread (Nat.le_refl _)
    rw [if_pos hcount] at hloop
    have hid : self.idOf process = some pid := by
      rw [idOf, List.getElem?_eq_getElem hlt, Option.map_some]
      exact congrArg some (of_decide_eq_true hpid)
    refine ⟨_, ?_, .inr ⟨thread, hcount, hid, rfl⟩⟩
    have hthreads : (self.setState process .TERMINATED).threads = self.threads := rfl
    have hactive : (self.setState process .TERMINATED).activeThreadCount = self.activeThreadCount := rfl
    simp only [hthreads, hactive, Option.bind_eq_bind]
    rw [hloop]
    rfl

theorem Tracked.terminateProcess_inv {self after : EnhancedScheduler} (h : self.Tracked) {pid : Nat}
    (hterminate : self.terminateProcess pid = some after) :
    (after = self ∧ ∀ process, self.idOf process ≠ some pid) ∨
      ∃ t : Fin MAX_THREADS, t.val < self.activeThreadCount ∧ self.idOf t.val = some pid ∧
        after = { self.setState t.val .TERMINATED with
          threads := Function.update self.threads t { self.threads t with isActive := false } } := by
  obtain ⟨after', hafter, hcases⟩ := h.terminateProcess_cases pid
  obtain rfl : after' = after := Option.some.inj (hafter.symm.trans hterminate)
  exact hcases

/-- A new process is ready, and the next thread is its main thread. It is
admitted as long as the table has a thread left. -/
theorem Tracked.createProcess_eq {self : EnhancedScheduler} (h : self.Tracked) (priority : UInt32) :
    self.createProcess priority =
      if hlt : self.activeThreadCount < MAX_THREADS then
        some ({ self with
          activeThreadCount := self.activeThreadCount + 1
          threads := Function.update self.threads ⟨self.activeThreadCount, hlt⟩
            { priority := priority.toNat
              cpuTime := 0
              isGameThread := priority > 10
              isActive := true
              processContext := getContext self.activeThreadCount }
          readyQueue := self.readyQueue ++ [self.activeThreadCount]
          processes := self.processes ++ [⟨self.activeThreadCount + 1, .READY, priority⟩] },
          self.activeThreadCount + 1)
      else none := by
  have hcount := h.count
  have hle := h.le
  have hroom : ¬ self.processes.length ≥ MAX_PROCESSES := by
    unfold MAX_PROCESSES
    unfold MAX_THREADS at hle
    omega
  rw [createProcess, if_neg hroom, threadIndex, ← hcount]
  split <;> rfl

/-- New threads outrank the starting maximum of the selection loop. -/
theorem calculateDynamicPriority_pos (priority : UInt32) (isGameThread isActive : Bool)
    (processContext : ContextPtr) :
    0 < calculateDynamicPriority ⟨priority.toNat, 0, isGameThread, isActive, processContext⟩ := by
  have hlt := priority.toNat_lt
  have hfairness : 1000000 / Word64.add 0 1 = 1000000 := rfl
  simp only [calculateDynamicPriority, hfairness]
  split
  · rw [Word64.mul_eq_of_lt (by omega), Word64.add_eq_of_lt (by omega)]
    omega
  · rw [Word64.add_eq_of_lt (by omega)]
    omega

theorem stateOf_append (self : EnhancedScheduler) (process : Process) (other : ProcessPtr) :
    (({ self with processes := self.processes ++ [process] } : EnhancedScheduler).stateOf other) =
      if other = self.processes.length then some process.state else self.stateOf other := by
  unfold stateOf
  by_cases heq : other = self.processes.length
  · rw [if_pos heq, heq, List.getElem?_concat_length, Option.map_some]
  · rw [if_neg heq]
    by_cases hlt : other < self.processes.length
    · rw [List.getElem?_append_left hlt]
    · have hgt : self.processes.length < other := Nat.lt_of_le_of_ne (Nat.not_lt.mp hlt) (Ne.symm heq)
      rw [List.getElem?_eq_none (by simp; omega), List.getElem?_eq_none (by omega)]

theorem stateOf_switchTo {self : EnhancedScheduler} {next : ProcessPtr} (thread : Fin MAX_THREADS)
    (hnext : self.currentProcess ≠ some next) (process : ProcessPtr) :
    (self.switchTo next thread).stateOf process =
      if next = process then (self.stateOf process).map fun _ => .RUNNING
      else if self.currentProcess = some process then (self.stateOf process).map fun _ => .READY
      else self.stateOf process := by
  cases hcurrent : self.currentProcess with
  | none =>
    have hswitch : (self.switchTo next thread).stateOf process =
        (self.setState next .RUNNING).stateOf process := by
      simp only [switchTo, hcurrent]
      rfl
    have hnone : (none : Option ProcessPtr) ≠ some process := nofun
    rw [hswitch, stateOf_setState, if_neg hnone]
  | some current =>
    have hne : current ≠ next := fun heq => hnext (hcurrent.trans (congrArg some heq))
    have hswitch : (self.switchTo next thread).stateOf process =
        ((self.setState current .READY).setState next .RUNNING).stateOf process := by
      simp only [switchTo, hcurrent]
      rfl
    rw [hswitch, stateOf_setState, stateOf_setState]
    simp only [Option.some.injEq]
    by_cases hprocess : next = process
    · rw [if_pos hprocess, if_pos hprocess, if_neg (hprocess ▸ hne)]
    · rw [if_neg hprocess, if_neg hprocess]

/-- What a switch leaves alone, and whom it makes current. -/
theorem switchTo_frame (self : EnhancedScheduler) (next : ProcessPtr) (thread : Fin MAX_THREADS) :
    (self.switchTo next thread).threads = self.threads ∧
      (self.switchTo next thread).activeThreadCount = self.activeThreadCount ∧
      (self.switchTo next thread).processes.length = self.processes.length ∧
      (∀ process, (self.switchTo next thread).idOf process = self.idOf process) ∧
      (self.switchTo next thread).currentProcess = some next ∧
      (self.switchTo next thread).currentThread = some thread ∧
      (self.switchTo next thread).readyQueue = self.readyQueue ++ self.currentProcess.toList := by
  cases hcurrent : self.currentProcess with
  | none =>
    simp only [switchTo, hcurrent]
    exact ⟨rfl, rfl, length_setState _ _ _, fun process => idOf_setState _ _ process _, rfl, rfl,
      (List.append_nil _).symm⟩
  | some current =>
    simp only [switchTo, hcurrent]
    refine ⟨rfl, rfl, ?_, ?_, rfl, rfl, rfl⟩
    · exact (length_setState _ _ _).trans (length_setState self current .READY)
    · exact fun process => (idOf_setState _ _ _ _).trans (idOf_setState self current process .READY)

theorem Tracked.switchTo {self : EnhancedScheduler} (h : self.Tracked) {thread : Fin MAX_THREADS}
    (hlt : thread.val < self.activeThreadCount) (hother : self.currentProcess ≠ some thread.val) :
    (self.switchTo thread.val thread).Tracked := by
  obtain ⟨hthreads, hcount, hlength, hids, hcurrent, hcurrentThread, _⟩ :=
    self.switchTo_frame thread.val thread
  have hstates := stateOf_switchTo thread hother
  refine ⟨?_, ?_, ?_, ?_, ?_, ?_, ?_, ?_, ?_⟩
  · rw [hcount, hlength, h.count]
  · exact hcount.symm ▸ h.le
  · intro process hprocess
    rw [hids]
    exact h.ids process (hlength ▸ hprocess)
  · rw [hthreads, hcount]
    exact h.context
  · rw [hthreads, hcount]
    exact h.boosted
  · intro t ht
    rw [hthreads]
    rw [hstates] at ht
    split at ht
    · simp [Option.map_eq_some_iff] at ht
    · split at ht
      · simp [Option.map_eq_some_iff] at ht
      · exact h.inactive t ht
  · rw [hcurrent, hcurrentThread, Option.map_some]
  · intro process hprocess
    rw [hcurrent, Option.some.injEq] at hprocess
    rw [hlength, ← h.count, ← hprocess]
    exact hlt
  · intro process hprocess hwaiting
    rw [hcurrent, ne_eq, Option.some.injEq] at hwaiting
    rw [hlength] at hprocess
    rw [hstates, if_neg hwaiting]
    split
    · obtain ⟨state, hstate⟩ := Option.isSome_iff_exists.mp (stateOf_isSome.mpr hprocess)
      rw [hstate]
      exact .inl rfl
    · exact h.waiting process hprocess ‹_›

theorem stateOf_terminated (self : EnhancedScheduler) (terminated process : ProcessPtr)
    (threads : Fin MAX_THREADS → ThreadContext) :
    ({ self.setState terminated .TERMINATED with threads } : EnhancedScheduler).stateOf process =
      if terminated = process then (self.stateOf process).map fun _ => .TERMINATED
      else self.stateOf process :=
  stateOf_setState self terminated process .TERMINATED

/-- A process is terminated together with its main thread. -/
theorem Tracked.terminated {self : EnhancedScheduler} (h : self.Tracked) {t : Fin MAX_THREADS}
    (hlt : t.val < self.activeThreadCount) :
    Tracked { self.setState t.val .TERMINATED with
      threads := Function.update self.threads t { self.threads t with isActive := false } } := by
  have hstates := self.stateOf_terminated t.val
  have hlength := length_setState self t.val .TERMINATED
  refine ⟨h.count.trans hlength.symm, h.le, ?_, ?_, ?_, ?_, h.current, ?_, ?_⟩
  · intro process hprocess
    have hid := h.ids process (hlength ▸ hprocess)
    exact (idOf_setState self t.val process .TERMINATED).trans hid
  · apply (Function.forall_update_iff self.threads fun u thread =>
      u.val < self.activeThreadCount → thread.processContext = getContext u.val).mpr
    exact ⟨fun _ => h.context t hlt, fun u _ => h.context u⟩
  · apply (Function.forall_update_iff self.threads fun u thread =>
      u.val < self.activeThreadCount → 0 < calculateDynamicPriority thread).mpr
    exact ⟨fun _ => h.boosted t hlt, fun u _ => h.boosted u⟩
  · intro u hu
    rw [hstates] at hu
    by_cases hut : u = t
    · simp [hut]
    · rw [if_neg fun heq => hut (Fin.ext heq.symm)] at hu
      simp only [Function.update_of_ne hut]
      exact h.inactive u hu
  · intro process hprocess
    exact (h.current_lt process hprocess).trans_eq hlength.symm
  · intro process hprocess hwaiting
    have hlt' : process < self.processes.length := hlength ▸ hprocess
    rw [hstates]
    split
    · obtain ⟨state, hstate⟩ := Option.isSome_iff_exists.mp (stateOf_isSome.mpr hlt')
      rw [hstate]
      exact .inr rfl
    · exact h.waiting process hlt' hwaiting

theorem Tracked.terminateProcess {self after : EnhancedScheduler} (h : self.Tracked) {pid : Nat}
    (hstep : self.terminateProcess pid = some after) : after.Tracked := by
  cases h.terminateProcess_inv hstep with
  | inl hunknown =>
    obtain ⟨rfl, _⟩ := hunknown
    exact h
  | inr hfound =>
    obtain ⟨t, hlt, _, rfl⟩ := hfound
    exact h.terminated hlt

/-- The next process and its main thread, and what else creating them changes. -/
theorem Tracked.createProcess_frame {self after : EnhancedScheduler} (h : self.Tracked)
    {priority : UInt32} {pid : Nat} (hstep : self.createProcess priority = some (after, pid)) :
    ∃ last : Fin MAX_THREADS, last.val = self.activeThreadCount ∧
      after.activeThreadCount = self.activeThreadCount + 1 ∧
      after.threads = Function.update self.threads last
        ⟨priority.toNat, 0, priority > 10, true, getContext last.val⟩ ∧
      after.processes = self.processes ++ [⟨self.activeThreadCount + 1, .READY, priority⟩] ∧
      (∀ process, after.stateOf process =
        if process = self.processes.length then some .READY else self.stateOf process) ∧
      after.readyQueue = self.readyQueue ++ [self.activeThreadCount] ∧
      after.currentProcess = self.currentProcess ∧ after.currentThread = self.currentThread := by
  rw [h.createProcess_eq] at hstep
  split at hstep
  case isFalse => cases hstep
  case isTrue hlt =>
    obtain ⟨rfl, _⟩ := Prod.mk.inj (Option.some.inj hstep)
    exact ⟨⟨self.activeThreadCount, hlt⟩, rfl, rfl, rfl, rfl,
      stateOf_append self ⟨self.activeThreadCount + 1, .READY, priority⟩, rfl, rfl, rfl⟩

theorem Tracked.createProcess {self after : EnhancedScheduler} (h : self.Tracked) {priority : UInt32}
    {pid : Nat} (hstep : self.createProcess priority = some (after, pid)) : after.Tracked := by
  obtain ⟨last, hval, hnew, hthreads, hprocesses, hstates, _, hcurrent, hcurrentThread⟩ :=
    h.createProcess_frame hstep
  have hcount := h.count
  have hlength : after.processes.length = self.processes.length + 1 := by simp [hprocesses]
  have hbelow {u : Fin MAX_THREADS} (hu : u.val < after.activeThreadCount) (hne : u ≠ last) :
      u.val < self.activeThreadCount := by
    have hvals : u.val ≠ last.val := fun heq => hne (Fin.ext heq)
    omega
  refine ⟨?_, ?_, ?_, ?_, ?_, ?_, ?_, ?_, ?_⟩
  · omega
  · have hlt := last.isLt
    rw [hnew, ← hval]
    exact hlt
  · intro process hprocess
    rw [idOf, hprocesses]
    by_cases heq : process = self.processes.length
    · rw [heq, List.getElem?_concat_length, hcount]
      rfl
    · rw [List.getElem?_append_left (by omega)]
      exact h.ids process (by omega)
  · rw [hthreads]
    apply (Function.forall_update_iff self.threads fun u thread =>
      u.val < after.activeThreadCount → thread.processContext = getContext u.val).mpr
    exact ⟨fun _ => rfl, fun u hne hu => h.context u (hbelow hu hne)⟩
  · rw [hthreads]
    apply (Function.forall_update_iff self.threads fun u thread =>
      u.val < after.activeThreadCount → 0 < calculateDynamicPriority thread).mpr
    exact ⟨fun _ => calculateDynamicPriority_pos _ _ _ _, fun u hne hu => h.boosted u (hbelow hu hne)⟩
  · intro u hu
    rw [hstates] at hu
    split at hu
    · cases hu
    · have hne : u ≠ last := fun heq => absurd ((congrArg Fin.val heq).trans (hval.trans hcount)) ‹_›
      rw [hthreads, Function.update_of_ne hne]
      exact h.inactive u hu
  · rw [hcurrent, hcurrentThread]
    exact h.current
  · intro process hprocess
    rw [hcurrent] at hprocess
    rw [hlength]
    exact Nat.lt_succ_of_lt (h.current_lt process hprocess)
  · intro process hprocess hwaiting
    rw [hlength] at hprocess
    rw [hcurrent] at hwaiting
    rw [hstates]
    split
    · exact .inl rfl
    · exact h.waiting process (Nat.lt_of_le_of_ne (Nat.le_of_lt_succ hprocess) ‹_›) hwaiting

theorem Tracked.of_state {self after : EnhancedScheduler} (h : self.Tracked)
    {readyQueue : List ProcessPtr} {state : State} (hafter : after = { self with readyQueue, state }) :
    after.Tracked := by
  rw [hafter]
  exact ⟨h.count, h.le, h.ids, h.context, h.boosted, h.inactive, h.current, h.current_lt, h.waiting⟩

theorem Tracked.step {self after : EnhancedScheduler} (h : self.Tracked) {op : Op}
    (hstep : self.step op = some after) : after.Tracked := by
  cases op with
  | initialized =>
    obtain rfl := Option.some.inj hstep
    exact h.of_state rfl
  | start =>
    obtain rfl := Option.some.inj hstep
    exact h.of_state self.start_eq
  | stop =>
    obtain rfl := Option.some.inj hstep
    exact h.of_state self.stop_eq
  | createProcess priority =>
    obtain ⟨⟨created, pid⟩, hcreate, rfl⟩ := Option.map_eq_some_iff.mp hstep
    exact h.createProcess hcreate
  | terminateProcess pid => exact h.terminateProcess hstep
  | schedule split =>
    cases h.schedule_inv hstep with
    | inl hstays =>
      obtain ⟨rfl, _⟩ := hstays
      exact h
    | inr hswitches =>
      obtain ⟨_, t, hlt, _, hother, rfl⟩ := hswitches
      exact h.switchTo hlt hother

end Kernel.EnhancedScheduler
