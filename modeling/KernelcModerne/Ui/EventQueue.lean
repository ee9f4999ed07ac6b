import KernelcModerne.Lib.MonitorHistory
import KernelcModerne.Lib.MonitorWaiting

open Transition Monitor

namespace UI

/-- The data of the queue, which looks into no event. -/
structure EventQueue (ε : Type) where
  events : List ε
  shutdown : Bool

namespace EventQueue

variable {ε : Type}

def constructed : EventQueue ε where
  events := []
  shutdown := false

inductive Call (ε : Type) where
  | push (event : ε)
  | pop (wait : Bool)
  | clear
  | stop
  | isEmpty

/-- What a call returns: for `pop` the event, if it returns true. -/
inductive Result (ε : Type) where
  | void
  | popped (event : Option ε)
  | empty (empty : Bool)

def push (self : EventQueue ε) (event : ε) : Outcome (EventQueue ε) (Result ε) :=
  .finish { self with events := self.events ++ [event] } .void (some .one)

def pop (self : EventQueue ε) (wait : Bool) : Outcome (EventQueue ε) (Result ε) :=
  if wait = true ∧ ¬ (self.events.isEmpty = false ∨ self.shutdown = true) then .wait
  else match self.events, self.shutdown with
    | event :: events, false => .finish { self with events } (.popped (some event)) none
    | _, _ => .finish self (.popped none) none

def clear (self : EventQueue ε) : Outcome (EventQueue ε) (Result ε) :=
  .finish { self with events := [] } .void none

def stop (self : EventQueue ε) : Outcome (EventQueue ε) (Result ε) :=
  .finish { self with shutdown := true } .void (some .all)

def isEmpty (self : EventQueue ε) : Outcome (EventQueue ε) (Result ε) :=
  .finish self (.empty self.events.isEmpty) none

/-- What a call does under the lock. -/
def body : Call ε → EventQueue ε → Outcome (EventQueue ε) (Result ε)
  | .push event, self => self.push event
  | .pop wait, self => self.pop wait
  | .clear, self => self.clear
  | .stop, self => self.stop
  | .isEmpty, self => self.isEmpty

def Call.waits : Call ε → Bool
  | pop wait => wait
  | _ => false

theorem pop_eq_wait_iff {self : EventQueue ε} {wait : Bool} :
    self.pop wait = .wait ↔ wait = true ∧ self.events = [] ∧ self.shutdown = false := by
  unfold pop
  split
  · simp_all
  · split <;> simp_all

/-- What a `pop` does that does not wait. -/
theorem pop_eq_finish {self next : EventQueue ε} {wait : Bool} {result : Result ε} {signal : Option Signal}
    (h : self.pop wait = .finish next result signal) :
    signal = none ∧
      (result = .popped none ∧ next = self ∧ (self.shutdown = true ∨ self.events = [] ∧ wait = false) ∨
        ∃ event, result = .popped (some event) ∧ self.events = event :: next.events ∧
          self.shutdown = false ∧ next.shutdown = false) := by
  unfold pop at h
  split at h
  · cases h
  · rename_i hready
    split at h
    · rename_i event events hevents hopen
      cases h
      exact ⟨rfl, .inr ⟨event, rfl, hevents, hopen, hopen⟩⟩
    · rename_i hother
      cases h
      refine ⟨rfl, .inl ⟨rfl, rfl, ?_⟩⟩
      cases hopen : self.shutdown with
      | true => exact .inl rfl
      | false =>
        cases hevents : self.events with
        | nil => exact .inr ⟨rfl, by simpa [hevents, hopen] using hready⟩
        | cons event events => exact (hother event events hevents hopen).elim

/-- Each event queued is a demand for one waiting `pop`. -/
theorem notifies : Notifies (body (ε := ε)) Call.waits (fun self => self.events.length)
    (fun self => self.shutdown = true) where
  wait := by
    intro call self h
    cases call with
    | pop wait =>
      obtain ⟨hwait, hevents, hopen⟩ := pop_eq_wait_iff.mp h
      exact ⟨hwait, by simp [hevents], by simp [hopen]⟩
    | _ => cases h
  finish := by
    intro call self next result signal h hopen
    cases call with
    | pop wait =>
      obtain ⟨rfl, ⟨-, rfl, hnone⟩ | ⟨event, -, hevents, hbefore, -⟩⟩ := pop_eq_finish h
      · obtain hclosed | ⟨hempty, rfl⟩ := hnone
        · exact absurd hclosed hopen
        · exact ⟨hopen, by simp [hempty]⟩
      · refine ⟨by simp [hbefore], ?_⟩
        have hlength := congrArg List.length hevents
        have hwait : wait.toNat ≤ 1 := Bool.toNat_le wait
        simp only [List.length_cons] at hlength
        simp only [Call.waits]
        omega
    | push event => cases h; exact ⟨hopen, by simp [Call.waits]⟩
    | clear => cases h; exact ⟨hopen, by simp⟩
    | stop => cases h; exact absurd rfl hopen
    | isEmpty => cases h; exact ⟨hopen, by simp [Call.waits]⟩
  close := by
    intro call self next result signal h hclosed
    cases call with
    | pop wait =>
      obtain ⟨-, ⟨-, rfl, -⟩ | ⟨event, -, -, -, hopen⟩⟩ := pop_eq_finish h
      · exact .inl hclosed
      · exact absurd hclosed (by simp [hopen])
    | push event => cases h; exact .inl hclosed
    | clear => cases h; exact .inl hclosed
    | stop => cases h; exact .inr rfl
    | isEmpty => cases h; exact .inl hclosed

/-- The events of the `push` calls of a log, in the order of their effects. -/
def pushed (log : List (Call ε × Result ε)) : List ε :=
  log.filterMap fun entry => match entry.1 with
    | .push event => some event
    | _ => none

/-- The event of the result of a `pop` that returned true. -/
def Result.event? : Result ε → Option ε
  | popped event => event
  | _ => none

def Call.isClear : Call ε → Bool
  | clear => true
  | _ => false

/-- What one call adds at the end and takes from the front. -/
theorem body_events {call : Call ε} {self next : EventQueue ε} {result : Result ε} {signal : Option Signal}
    (h : body call self = .finish next result signal) :
    (result.event?.toList ++ next.events).Sublist (self.events ++ pushed [(call, result)]) ∧
      (call.isClear = false →
        result.event?.toList ++ next.events = self.events ++ pushed [(call, result)]) := by
  cases call with
  | pop wait =>
    obtain ⟨-, ⟨rfl, rfl, -⟩ | ⟨event, rfl, hevents, -, -⟩⟩ := pop_eq_finish h
    · simp [Result.event?, pushed]
    · simp [Result.event?, pushed, hevents]
  | push event => cases h; simp [Result.event?, pushed]
  | clear => cases h; simp [Result.event?, Call.isClear]
  | stop => cases h; simp [Result.event?, pushed]
  | isEmpty => cases h; simp [Result.event?, pushed]

theorem pushed_append (first second : List (Call ε × Result ε)) :
    pushed (first ++ second) = pushed first ++ pushed second := List.filterMap_append

/-- What has been taken out and what is queued are pushed events, in the order in
which they were pushed, and all of them where nothing was cleared. -/
theorem sequential_events {log : List (Call ε × Result ε)} {self : EventQueue ε}
    (h : Sequential body constructed log self) :
    ((log.filterMap fun entry => entry.2.event?) ++ self.events).Sublist (pushed log) ∧
      ((∀ entry ∈ log, entry.1.isClear = false) →
        pushed log = (log.filterMap fun entry => entry.2.event?) ++ self.events) := by
  induction h with
  | nil => exact ⟨List.Sublist.refl _, fun _ => rfl⟩
  | @snoc log data next call result signal hlog hbody ih =>
    obtain ⟨hsub, heq⟩ := ih
    obtain ⟨hstep, hexact⟩ := body_events hbody
    have htaken : (log ++ [(call, result)]).filterMap (fun entry => entry.2.event?) =
        log.filterMap (fun entry => entry.2.event?) ++ result.event?.toList := by
      rw [List.filterMap_append]
      cases hevent : result.event? <;> simp [hevent]
    rw [htaken, pushed_append, List.append_assoc]
    constructor
    · have hrest := hsub.append_right (pushed [(call, result)])
      rw [List.append_assoc] at hrest
      exact (hstep.append_left _).trans hrest
    · intro hclear
      rw [heq fun entry hentry => hclear entry (List.mem_append_left _ hentry),
        hexact (hclear (call, result) (List.mem_append_right _ List.mem_cons_self)), List.append_assoc]

def Call.isStop : Call ε → Bool
  | stop => true
  | _ => false

/-- A queue that was stopped stays so, and answers no `pop` with an event. -/
theorem body_shutdown {call : Call ε} {self next : EventQueue ε} {result : Result ε} {signal : Option Signal}
    (h : body call self = .finish next result signal) (hstopped : self.shutdown = true) :
    next.shutdown = true ∧ result.event? = none := by
  cases call with
  | pop wait =>
    obtain ⟨-, ⟨rfl, rfl, -⟩ | ⟨event, -, -, hopen, -⟩⟩ := pop_eq_finish h
    · exact ⟨hstopped, rfl⟩
    · simp [hopen] at hstopped
  | push event => cases h; exact ⟨hstopped, rfl⟩
  | clear => cases h; exact ⟨hstopped, rfl⟩
  | stop => cases h; exact ⟨rfl, rfl⟩
  | isEmpty => cases h; exact ⟨hstopped, rfl⟩

theorem sequential_stopped {log : List (Call ε × Result ε)} {self : EventQueue ε}
    (h : Sequential body constructed log self) :
    ((∃ entry ∈ log, entry.1.isStop = true) → self.shutdown = true) ∧
      log.Pairwise fun earlier later => earlier.1.isStop = true → later.2.event? = none := by
  induction h with
  | nil => simp
  | @snoc log data next call result signal hlog hbody ih =>
    obtain ⟨hstopped, hpairwise⟩ := ih
    constructor
    · rintro ⟨entry, hentry, hstop⟩
      rw [List.mem_append, List.mem_singleton] at hentry
      obtain hentry | rfl := hentry
      · exact (body_shutdown hbody (hstopped ⟨entry, hentry, hstop⟩)).1
      · cases call with
        | stop => cases hbody; rfl
        | _ => cases hstop
    · refine List.pairwise_append.mpr ⟨hpairwise, List.pairwise_singleton _ _, ?_⟩
      intro earlier hearlier later hlater hstop
      obtain rfl := List.mem_singleton.mp hlater
      exact (body_shutdown hbody (hstopped ⟨earlier, hearlier, hstop⟩)).2

section Threads

variable {τ : Type} [DecidableEq τ] [Fintype τ]

/-- While a thread sleeps in a `pop`, there are at least as many threads on their
way to take an event, or about to notify, as there are events; and once the queue
is stopped the notification of all is still to come. -/
theorem events_covered_of_asleep (ops : List (Action τ (Call ε)))
    {s : Monitor.State τ (EventQueue ε) (Call ε) (Result ε)}
    (hrun : run (step body) (.initial constructed) ops = some s) (thread : τ) (call : Call ε)
    (hasleep : s.control thread = .asleep call) :
    call = .pop true ∧
      (s.data.shutdown = false → s.data.events.length ≤ s.total (Control.weight Call.waits)) ∧
      (s.data.shutdown = true → ∃ stopper result, s.control stopper = .signalling result .all) := by
  have hserved := run_served notifies hrun
  refine ⟨?_, fun hopen => hserved.covered thread call hasleep (by simp [hopen]),
    hserved.closing thread call hasleep⟩
  have hwaits := hserved.asleep_waits thread call hasleep
  cases call with
  | pop wait => exact congrArg Call.pop hwaits
  | _ => cases hwaits

/-- Of two threads, one sleeps and the other has pushed an event but not yet
notified. -/
theorem events_covered_of_asleep_pushed : ∃ s : Monitor.State (Fin 2) (EventQueue Nat) (Call Nat) (Result Nat),
    run (step body) (.initial constructed)
      [.call 0 (.pop true), .lock 0, .work 0, .call 1 (.push 7), .lock 1, .work 1] = some s ∧
    s.data.events = [7] ∧ s.data.events.length ≤ s.total (Control.weight Call.waits) :=
  ⟨_, rfl, rfl, (events_covered_of_asleep
    [.call 0 (.pop true), .lock 0, .work 0, .call 1 (.push 7), .lock 1, .work 1] rfl 0 (.pop true) rfl).2.1 rfl⟩

/-- From every state that the threads reach, however they are scheduled, the
calls they are in go on for a bounded number of steps, and at their end a thread
that still sleeps in a `pop` has an empty queue, which is not stopped. -/
theorem calls_come_to_rest (ops rest : List (Action τ (Call ε)))
    {s t : Monitor.State τ (EventQueue ε) (Call ε) (Result ε)}
    (hrun : run (step body) (.initial constructed) ops = some s)
    (hinternal : ∀ a ∈ rest, a.isInternal = true) (hrest : run (step body) s rest = some t) :
    rest.length ≤ Fintype.card τ * (2 * Fintype.card τ + 4) ∧
      (t.AtRest ∨ ∃ a, a.isInternal = true ∧ (step body t a).isSome = true) ∧
      (t.AtRest → ∀ thread call, t.control thread = .asleep call →
        t.data.events = [] ∧ t.data.shutdown = false) := by
  have hboth : run (step body) (.initial constructed) (ops ++ rest) = some t := by
    rw [run_append, hrun, Option.bind_some, hrest]
  refine ⟨?_, ?_, ?_⟩
  · have hlength := run_length_le hinternal hrest
    have hrank := s.rank_le
    omega
  · by_cases hatRest : t.AtRest
    · exact .inl hatRest
    · exact .inr (exists_step (run_locked hboth) hatRest)
  · intro hatRest thread call hasleep
    obtain ⟨hdemand, hopen⟩ := (run_served notifies hboth).at_rest hatRest hasleep
    exact ⟨List.eq_nil_of_length_eq_zero hdemand, by simpa using hopen⟩

/-- The pushing thread goes on; it notifies the sleeping one, which takes the
event. -/
theorem calls_come_to_rest_taken : ∃ s t : Monitor.State (Fin 2) (EventQueue Nat) (Call Nat) (Result Nat),
    run (step body) (.initial constructed)
      [.call 0 (.pop true), .lock 0, .work 0, .call 1 (.push 7), .lock 1, .work 1] = some s ∧
    run (step body) s [.signal 1 (some 0), .unlock 1, .lock 0, .work 0, .unlock 0] = some t ∧
    (t.AtRest ∨ ∃ a, a.isInternal = true ∧ (step body t a).isSome = true) :=
  ⟨_, _, rfl, rfl, (calls_come_to_rest
    [.call 0 (.pop true), .lock 0, .work 0, .call 1 (.push 7), .lock 1, .work 1]
    [.signal 1 (some 0), .unlock 1, .lock 0, .work 0, .unlock 0] rfl (by decide) rfl).2.1⟩

/-- The events that the `pop` calls of a log returned. -/
def delivered (log : List (Observed τ (Call ε) (Result ε))) : List ε :=
  (returns log).filterMap fun entry => entry.2.event?

/-- The calls of a log in the order of their effects. -/
def history (log : List (Observed τ (Call ε) (Result ε))) : List (Call ε × Result ε) :=
  (effects log).map Prod.snd

/-- Whatever the interleaving, events are delivered in the order in which they
were pushed and none of them twice; where nothing was cleared, those delivered,
those held by the `pop` that has the lock and those queued are all that were
pushed. -/
theorem delivered_in_order (ops : List (Action τ (Call ε)))
    {s : Monitor.State τ (EventQueue ε) (Call ε) (Result ε)}
    (hrun : run (step body) (.initial constructed) ops = some s) :
    let log := trace (step body) (observe body) (.initial constructed) ops
    let held := s.heldResults.filterMap fun entry => entry.2.event?
    (delivered log ++ held ++ s.data.events).Sublist (pushed (history log)) ∧
      ((∀ entry ∈ history log, entry.1.isClear = false) →
        pushed (history log) = delivered log ++ held ++ s.data.events) := by
  intro log held
  have hexplains := run_explains hrun
  have htaken : (history log).filterMap (fun entry => entry.2.event?) = delivered log ++ held := by
    have hreturned := congrArg (List.filterMap fun entry => entry.2.event?) hexplains.returned
    rw [List.filterMap_append, List.filterMap_map] at hreturned
    rw [history, List.filterMap_map]
    exact hreturned
  rw [← htaken]
  exact sequential_events hexplains.sequential

theorem delivered_in_order_two :
    let ops : List (Action (Fin 2) (Call Nat)) :=
      [.call 0 (.push 7), .lock 0, .work 0, .signal 0 none, .unlock 0, .call 0 (.push 8), .lock 0, .work 0,
        .signal 0 none, .unlock 0, .call 1 (.pop true), .lock 1, .work 1]
    let log := trace (step body) (observe body) (.initial constructed) ops
    ∃ s : Monitor.State (Fin 2) (EventQueue Nat) (Call Nat) (Result Nat),
      run (step body) (.initial constructed) ops = some s ∧ s.data.events = [8] ∧
      pushed (history log) =
        delivered log ++ (s.heldResults.filterMap fun entry => entry.2.event?) ++ s.data.events :=
  ⟨_, rfl, rfl, (delivered_in_order _ rfl).2 (by decide)⟩

/-- Once a `stop` has had its effect no `pop` gets an event any more, and when
the calls have come to rest no thread sleeps. -/
theorem nothing_delivered_after_stop (ops : List (Action τ (Call ε)))
    {s : Monitor.State τ (EventQueue ε) (Call ε) (Result ε)}
    (hrun : run (step body) (.initial constructed) ops = some s) :
    let log := trace (step body) (observe body) (.initial constructed) ops
    ((history log).Pairwise fun earlier later => earlier.1.isStop = true → later.2.event? = none) ∧
      ((∃ entry ∈ history log, entry.1.isStop = true) → s.AtRest →
        ∀ thread, s.control thread = .idle) := by
  intro log
  obtain ⟨hstopped, hpairwise⟩ := sequential_stopped (run_explains hrun).sequential
  refine ⟨hpairwise, fun hstop hatRest thread => ?_⟩
  have hrests := hatRest thread
  cases hat : s.control thread with
  | idle => rfl
  | asleep call => exact absurd (hstopped hstop) ((run_served notifies hrun).at_rest hatRest hat).2
  | _ => simp [hat, Control.rests] at hrests

theorem nothing_delivered_after_stop_asleep :
    ∃ s : Monitor.State (Fin 2) (EventQueue Nat) (Call Nat) (Result Nat),
      run (step body) (.initial constructed)
        [.call 0 (.pop true), .lock 0, .work 0, .call 1 .stop, .lock 1, .work 1, .signal 1 none, .unlock 1,
          .lock 0, .work 0, .unlock 0] = some s ∧
      (s.AtRest → ∀ thread, s.control thread = .idle) :=
  ⟨_, rfl, (nothing_delivered_after_stop
    [.call 0 (.pop true), .lock 0, .work 0, .call 1 .stop, .lock 1, .work 1, .signal 1 none, .unlock 1,
      .lock 0, .work 0, .unlock 0] rfl).2 ⟨(.stop, .void), List.mem_cons_self, rfl⟩⟩

end Threads

end EventQueue

end UI
