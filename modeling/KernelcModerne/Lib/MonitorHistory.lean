import KernelcModerne.Lib.Monitor

open Transition

namespace Monitor

variable {τ σ κ ρ : Type}

/-- What is seen of a run: calls, the moments of their effects, returns. -/
inductive Observed (τ κ ρ : Type) where
  | called (thread : τ) (call : κ)
  | finished (thread : τ) (call : κ) (result : ρ)
  | returned (thread : τ) (result : ρ)

namespace Observed

def asCall : Observed τ κ ρ → Option (τ × κ)
  | called thread call => some (thread, call)
  | _ => none

def asEffect : Observed τ κ ρ → Option (τ × κ × ρ)
  | finished thread call result => some (thread, call, result)
  | _ => none

def asReturn : Observed τ κ ρ → Option (τ × ρ)
  | returned thread result => some (thread, result)
  | _ => none

end Observed

/-- The calls of a log, in the order in which they were made. -/
def calls (log : List (Observed τ κ ρ)) : List (τ × κ) := log.filterMap Observed.asCall

/-- The effects of a log, each with its thread, its call and its result. -/
def effects (log : List (Observed τ κ ρ)) : List (τ × κ × ρ) := log.filterMap Observed.asEffect

/-- The results of a log, in the order in which they were returned. -/
def returns (log : List (Observed τ κ ρ)) : List (τ × ρ) := log.filterMap Observed.asReturn

/-- The calls that have these results, one after the other, lead from `start` to
the data. -/
inductive Sequential (body : κ → σ → Outcome σ ρ) (start : σ) : List (κ × ρ) → σ → Prop where
  | nil : Sequential body start [] start
  | snoc {log : List (κ × ρ)} {data next : σ} {call : κ} {result : ρ} {signal : Option Signal}
    (hlog : Sequential body start log data) (hbody : body call data = .finish next result signal) :
    Sequential body start (log ++ [(call, result)]) next

/-- What `thread` has in a log. -/
def ofThread {β : Type} [DecidableEq τ] (thread : τ) (log : List (τ × β)) : List β :=
  log.filterMap fun entry => if entry.1 = thread then some entry.2 else none

/-- The results of the thread that owns the lock. -/
def State.heldResults (s : State τ σ κ ρ) : List (τ × ρ) :=
  match s.owner with
  | some thread => (s.control thread).unreturned.map fun result => (thread, result)
  | none => []

/-- No result is held while all threads rest. -/
theorem State.AtRest.heldResults {s : State τ σ κ ρ} (h : s.AtRest) (hlocked : s.Locked) :
    s.heldResults = [] := by
  unfold State.heldResults
  split
  · next thread howner =>
    have hinside := (hlocked thread).mpr howner
    have hrests := h thread
    cases hat : s.control thread <;> simp [hat, Control.isInside, Control.rests] at hinside hrests
  · rfl

section Observing

variable (body : κ → σ → Outcome σ ρ)

/-- What is seen of a step. -/
def observe (s : State τ σ κ ρ) : Action τ κ → List (Observed τ κ ρ)
  | .call thread call => [.called thread call]
  | .work thread =>
    match s.control thread with
    | .holding call =>
      match body call s.data with
      | .wait => []
      | .finish _ result _ => [.finished thread call result]
    | _ => []
  | .unlock thread =>
    match s.control thread with
    | .leaving result => [.returned thread result]
    | _ => []
  | _ => []

variable {body}

theorem observe_sleep {s : State τ σ κ ρ} {thread : τ} {call : κ} (hat : s.control thread = .holding call)
    (hbody : body call s.data = .wait) : observe body s (.work thread) = [] := by
  simp only [observe, hat, hbody]

theorem observe_finish {s : State τ σ κ ρ} {thread : τ} {call : κ} {next : σ} {result : ρ}
    {signal : Option Signal} (hat : s.control thread = .holding call)
    (hbody : body call s.data = .finish next result signal) :
    observe body s (.work thread) = [.finished thread call result] := by
  simp only [observe, hat, hbody]

theorem observe_unlock {s : State τ σ κ ρ} {thread : τ} {result : ρ}
    (hat : s.control thread = .leaving result) :
    observe body s (.unlock thread) = [.returned thread result] := by
  simp only [observe, hat]

end Observing

variable [DecidableEq τ] {body : κ → σ → Outcome σ ρ}

/-- A thread has a call pending from when it makes it until its effect. -/
theorem Move.pending {s t : State τ σ κ ρ} {a : Action τ κ} (hmove : Move body s a t) (u : τ) :
    (s.control u).pending ++ ofThread u (calls (observe body s a)) =
      (ofThread u (effects (observe body s a))).map Prod.fst ++ (t.control u).pending := by
  have hquiet : calls (observe body s a) = [] → effects (observe body s a) = [] →
      (t.control u).pending = (s.control u).pending →
      (s.control u).pending ++ ofThread u (calls (observe body s a)) =
        (ofThread u (effects (observe body s a))).map Prod.fst ++ (t.control u).pending := by
    intro hcalls heffects hsame
    rw [hcalls, heffects, hsame]
    simp [ofThread]
  cases hmove with
  | @call thread call hidle =>
    by_cases hu : u = thread
    · subst hu
      simp [observe, calls, effects, ofThread, Observed.asCall, Observed.asEffect, hidle, Control.pending]
    · simp [observe, calls, effects, ofThread, Observed.asCall, Observed.asEffect, hu, Ne.symm hu]
  | enter hfree hat => exact hquiet rfl rfl (State.sees_moved _ (by rw [hat]; rfl) u)
  | resume hfree hat => exact hquiet rfl rfl (State.sees_moved _ (by rw [hat]; rfl) u)
  | sleep hat hbody =>
    refine hquiet ?_ ?_ (State.sees_moved _ (by rw [hat]; rfl) u)
    · rw [observe_sleep hat hbody]; rfl
    · rw [observe_sleep hat hbody]; rfl
  | @finish thread call next result signal hat hbody =>
    rw [observe_finish hat hbody]
    by_cases hu : u = thread
    · subst hu
      cases signal <;>
        simp [calls, effects, ofThread, Observed.asCall, Observed.asEffect, hat, Control.pending, Control.after]
    · simp [calls, effects, ofThread, Observed.asCall, Observed.asEffect, hu, Ne.symm hu]
  | @signalOne thread waiting result call hat hasleep =>
    have hne : thread ≠ waiting := fun heq => by simp [heq ▸ hat] at hasleep
    refine hquiet rfl rfl ?_
    rw [State.sees_moved Control.pending (by simp [hne, hat, Control.pending]),
      State.sees_moved Control.pending (by rw [hasleep]; rfl)]
  | signalNone hat hnone => exact hquiet rfl rfl (State.sees_moved _ (by rw [hat]; rfl) u)
  | signalAll hat =>
    refine hquiet rfl rfl ?_
    rw [State.sees_moved Control.pending (by rw [State.allWoken_control, hat]; rfl), State.allWoken_control,
      Control.pending_wake]
  | unlock hat =>
    refine hquiet ?_ ?_ (State.sees_moved _ (by rw [hat]; rfl) u)
    · rw [observe_unlock hat]; rfl
    · rw [observe_unlock hat]; rfl
  | wakeup hat => exact hquiet rfl rfl (State.sees_moved _ (by rw [hat]; rfl) u)

/-- A result is held from the effect of a call until the call returns. -/
theorem Move.heldResults {s t : State τ σ κ ρ} {a : Action τ κ} (hmove : Move body s a t) (h : s.Locked) :
    s.heldResults ++ (effects (observe body s a)).map (fun effect => (effect.1, effect.2.2)) =
      returns (observe body s a) ++ t.heldResults := by
  have hquiet : effects (observe body s a) = [] → returns (observe body s a) = [] →
      t.heldResults = s.heldResults →
      s.heldResults ++ (effects (observe body s a)).map (fun effect => (effect.1, effect.2.2)) =
        returns (observe body s a) ++ t.heldResults := by
    intro heffects hreturns hsame
    rw [heffects, hreturns, hsame]
    simp
  have hsame {t : State τ σ κ ρ} (howner : t.owner = s.owner)
      (hcontrol : ∀ u, (t.control u).unreturned = (s.control u).unreturned) :
      t.heldResults = s.heldResults := by
    simp only [State.heldResults, howner, hcontrol]
  have howner (thread : τ) (hin : (s.control thread).isInside = true) : s.owner = some thread :=
    (h thread).mp hin
  cases hmove with
  | call hidle => exact hquiet rfl rfl (hsame rfl (State.sees_moved _ (by rw [hidle]; rfl)))
  | enter hfree hat => exact hquiet rfl rfl (by simp [State.heldResults, hfree, Control.unreturned])
  | resume hfree hat => exact hquiet rfl rfl (by simp [State.heldResults, hfree, Control.unreturned])
  | @sleep thread call hat hbody =>
    rw [observe_sleep hat hbody]
    simp [State.heldResults, howner thread (by rw [hat]; rfl), hat, Control.unreturned, effects, returns]
  | @finish thread call next result signal hat hbody =>
    rw [observe_finish hat hbody]
    cases signal <;>
      simp [State.heldResults, howner thread (by rw [hat]; rfl), hat, Control.unreturned, Control.after,
        effects, returns, Observed.asEffect, Observed.asReturn]
  | @signalOne thread waiting result call hat hasleep =>
    have hne : thread ≠ waiting := fun heq => by simp [heq ▸ hat] at hasleep
    refine hquiet rfl rfl (hsame rfl fun u => ?_)
    rw [State.sees_moved Control.unreturned (by simp [hne, hat, Control.unreturned]),
      State.sees_moved Control.unreturned (by rw [hasleep]; rfl)]
  | signalNone hat hnone => exact hquiet rfl rfl (hsame rfl (State.sees_moved _ (by rw [hat]; rfl)))
  | signalAll hat =>
    refine hquiet rfl rfl (hsame rfl fun u => ?_)
    rw [State.sees_moved Control.unreturned (by rw [State.allWoken_control, hat]; rfl), State.allWoken_control,
      Control.unreturned_wake]
  | @unlock thread result hat =>
    rw [observe_unlock hat]
    simp [State.heldResults, howner thread (by rw [hat]; rfl), hat, Control.unreturned, effects, returns,
      Observed.asEffect, Observed.asReturn]
  | wakeup hat => exact hquiet rfl rfl (hsame rfl (State.sees_moved _ (by rw [hat]; rfl)))

theorem Move.sequential {s t : State τ σ κ ρ} {a : Action τ κ} (hmove : Move body s a t) {start : σ}
    {log : List (κ × ρ)} (hlog : Sequential body start log s.data) :
    Sequential body start (log ++ (effects (observe body s a)).map Prod.snd) t.data := by
  have hquiet : effects (observe body s a) = [] → t.data = s.data →
      Sequential body start (log ++ (effects (observe body s a)).map Prod.snd) t.data := by
    intro heffects hdata
    rw [heffects, hdata]
    simpa using hlog
  cases hmove with
  | sleep hat hbody => exact hquiet (by rw [observe_sleep hat hbody]; rfl) rfl
  | finish hat hbody =>
    rw [observe_finish hat hbody]
    exact hlog.snoc hbody
  | unlock hat => exact hquiet (by rw [observe_unlock hat]; rfl) rfl
  | _ => exact hquiet rfl rfl

/-- What the log of a run says of the state it reaches: the effects are those of
calls made one after the other, each thread's calls have had their effects in
the order of the calls but for the one it is in, and what was returned are the
results in the order of the effects but for those still held. -/
structure Explains (body : κ → σ → Outcome σ ρ) (start : σ) (log : List (Observed τ κ ρ))
    (s : State τ σ κ ρ) : Prop where
  sequential : Sequential body start ((effects log).map Prod.snd) s.data
  answered : ∀ thread, ofThread thread (calls log) =
    (ofThread thread (effects log)).map Prod.fst ++ (s.control thread).pending
  returned : (effects log).map (fun effect => (effect.1, effect.2.2)) = returns log ++ s.heldResults

theorem Move.explains {s t : State τ σ κ ρ} {a : Action τ κ} (hmove : Move body s a t) {start : σ}
    {log : List (Observed τ κ ρ)} (hlocked : s.Locked) (h : Explains body start log s) :
    Explains body start (log ++ observe body s a) t where
  sequential := by
    have hnext := hmove.sequential h.sequential
    simpa [effects] using hnext
  answered := fun thread => by
    have hpending := hmove.pending thread
    have hbefore := h.answered thread
    simp only [calls, effects, ofThread, List.filterMap_append, List.map_append, List.append_assoc]
      at hpending hbefore ⊢
    rw [← hpending, ← List.append_assoc, ← hbefore]
  returned := by
    have hheld := hmove.heldResults hlocked
    have hbefore := h.returned
    simp only [effects, returns, List.filterMap_append, List.map_append, List.append_assoc] at hheld hbefore ⊢
    rw [← hheld, ← List.append_assoc, ← hbefore]

/-- Every run is explained by its log. -/
theorem run_explains [Fintype τ] {data : σ} {ops : List (Action τ κ)} {t : State τ σ κ ρ}
    (hrun : run (step body) (.initial data) ops = some t) :
    Explains body data (trace (step body) (observe body) (.initial data) ops) t := by
  have hboth := trace_invariant (fun log s => s.Locked ∧ Explains body data log s)
    (fun log s a s' h ha => ⟨(move_of_step ha).locked h.1, (move_of_step ha).explains h.1 h.2⟩) ops
    ⟨State.initial_locked data, ⟨.nil, fun _ => rfl, rfl⟩⟩ hrun
  exact hboth.2

end Monitor
