import Mathlib.Algebra.BigOperators.Group.Finset.Basic
import Mathlib.Algebra.Order.BigOperators.Group.Finset
import Mathlib.Data.Fintype.BigOperators
import KernelcModerne.Lib.Monitor

open Transition

namespace Monitor

variable {τ σ κ ρ : Type}

/-- `demand` counts the waiting threads that could go on, and after `closed` all
could: only the calls for which `waits` is true wait, and they do so where there
is no demand; a call raises it by at most one, and then notifies, and one that
may wait lowers it; the call that closes notifies all. -/
structure Notifies (body : κ → σ → Outcome σ ρ) (waits : κ → Bool) (demand : σ → Nat)
    (closed : σ → Prop) : Prop where
  wait : ∀ call data, body call data = .wait → waits call = true ∧ demand data = 0 ∧ ¬ closed data
  finish : ∀ call data next result signal, body call data = .finish next result signal → ¬ closed next →
    ¬ closed data ∧ demand next ≤ demand data - (waits call).toNat + signal.isSome.toNat
  close : ∀ call data next result signal, body call data = .finish next result signal → closed next →
    closed data ∨ signal = some .all

/-- Whether the thread is on its way to meet a demand, or about to notify. -/
def Control.weight (waits : κ → Bool) : Control κ ρ → Nat
  | holding call => (waits call).toNat
  | woken call => (waits call).toNat
  | signalling _ _ => 1
  | _ => 0

section Totals

variable [Fintype τ]

/-- A sum over where the threads are. -/
def State.total (s : State τ σ κ ρ) (weight : Control κ ρ → Nat) : Nat :=
  ∑ thread, weight (s.control thread)

variable {waits : κ → Bool} {demand : σ → Nat} {closed : σ → Prop}

/-- No wakeup is lost: while a thread sleeps, the demand is covered by threads
that are on their way, and once closed the notification of all is still to come. -/
structure Served (waits : κ → Bool) (demand : σ → Nat) (closed : σ → Prop)
    (s : State τ σ κ ρ) : Prop where
  asleep_waits : ∀ thread call, s.control thread = .asleep call → waits call = true
  covered : ∀ thread call, s.control thread = .asleep call → ¬ closed s.data →
    demand s.data ≤ s.total (Control.weight waits)
  closing : ∀ thread call, s.control thread = .asleep call → closed s.data →
    ∃ closer result, s.control closer = .signalling result .all

/-- A thread that sleeps while all rest has nothing to go on with. -/
theorem Served.at_rest {s : State τ σ κ ρ} (h : Served waits demand closed s) (hrest : s.AtRest) {thread : τ}
    {call : κ} (hasleep : s.control thread = .asleep call) : demand s.data = 0 ∧ ¬ closed s.data := by
  have hopen : ¬ closed s.data := by
    intro hclosed
    obtain ⟨closer, result, hcloser⟩ := h.closing thread call hasleep hclosed
    have hrests := hrest closer
    simp [hcloser, Control.rests] at hrests
  have hzero : s.total (Control.weight waits) = 0 := by
    refine Finset.sum_eq_zero fun u _ => ?_
    have hrests := hrest u
    cases hat : s.control u with
    | idle => rfl
    | asleep call => rfl
    | _ => simp [hat, Control.rests] at hrests
  exact ⟨Nat.le_zero.mp (hzero ▸ h.covered thread call hasleep hopen), hopen⟩

/-- How much a thread can still do inside its call, among `n`. -/
def Control.rank (n : Nat) : Control κ ρ → Nat
  | idle => 0
  | leaving _ => 1
  | signalling _ _ => 2 * n + 2
  | asleep _ => 2 * n + 2
  | holding _ => 2 * n + 3
  | entering _ => 2 * n + 4
  | woken _ => 2 * n + 4

def State.rank (s : State τ σ κ ρ) : Nat := s.total (Control.rank (Fintype.card τ))

theorem State.rank_le (s : State τ σ κ ρ) : s.rank ≤ Fintype.card τ * (2 * Fintype.card τ + 4) := by
  have hthread : ∀ u ∈ Finset.univ, (s.control u).rank (Fintype.card τ) ≤ 2 * Fintype.card τ + 4 := by
    intro u _
    cases s.control u <;> simp only [Control.rank] <;> omega
  simpa [State.rank, State.total] using Finset.sum_le_card_nsmul Finset.univ _ _ hthread

end Totals

section Runs

variable [DecidableEq τ] {body : κ → σ → Outcome σ ρ}

/-- A thread that sleeps after a step slept before, or has found nothing to go on
with. -/
theorem Move.asleep_before {s t : State τ σ κ ρ} {a : Action τ κ} (hmove : Move body s a t)
    {u : τ} {call : κ} (hasleep : t.control u = .asleep call) :
    s.control u = .asleep call ∨ body call s.data = .wait ∧ t.data = s.data := by
  have hmoved {s : State τ σ κ ρ} {thread : τ} {control : Control κ ρ} (hne : control ≠ .asleep call)
      (h : (s.moved thread control).control u = .asleep call) : s.control u = .asleep call := by
    by_cases hu : u = thread
    · subst hu
      exact absurd (by simpa using h) hne
    · simpa [hu] using h
  cases hmove with
  | @sleep thread other hat hbody =>
    by_cases hu : u = thread
    · subst hu
      obtain rfl : other = call := by simpa using hasleep
      exact .inr ⟨hbody, rfl⟩
    · exact .inl (by simpa [hu] using hasleep)
  | @finish thread other next result signal hat hbody =>
    have hawake : Control.after result signal ≠ .asleep call := by
      cases signal <;> simp [Control.after]
    exact .inl (hmoved hawake hasleep)
  | signalOne hat hother => exact .inl (hmoved (by simp) (hmoved (by simp) hasleep))
  | signalAll hat =>
    have hwake := hmoved (by simp) hasleep
    rw [State.allWoken_control] at hwake
    have hawake := Control.isAsleep_wake (s.control u)
    simp [hwake, Control.isAsleep] at hawake
  | _ => exact .inl (hmoved (by simp) hasleep)

variable [Fintype τ] {waits : κ → Bool} {demand : σ → Nat} {closed : σ → Prop}

/-- One thread's part of the sum. -/
theorem State.total_eq (s : State τ σ κ ρ) (weight : Control κ ρ → Nat) (thread : τ) :
    s.total weight = weight (s.control thread) + ∑ u ∈ Finset.univ.erase thread, weight (s.control u) :=
  (Finset.add_sum_erase Finset.univ (fun u => weight (s.control u)) (Finset.mem_univ thread)).symm

theorem State.total_moved (s : State τ σ κ ρ) (weight : Control κ ρ → Nat) (thread : τ)
    (control : Control κ ρ) :
    (s.moved thread control).total weight + weight (s.control thread) = s.total weight + weight control := by
  have hother : ∀ u ∈ Finset.univ.erase thread,
      weight ((s.moved thread control).control u) = weight (s.control u) := by
    intro u hu
    simp [Finset.ne_of_mem_erase hu]
  rw [State.total_eq _ weight thread, State.total_eq s weight thread, Finset.sum_congr rfl hother]
  simp only [moved_control, Function.update_self]
  omega

theorem Move.asleep_waits (hlaw : Notifies body waits demand closed) {s t : State τ σ κ ρ} {a : Action τ κ}
    (hmove : Move body s a t) (h : Served waits demand closed s) {u : τ} {call : κ}
    (hasleep : t.control u = .asleep call) : waits call = true := by
  cases hmove.asleep_before hasleep with
  | inl hbefore => exact h.asleep_waits u call hbefore
  | inr hwait => exact (hlaw.wait call s.data hwait.1).1

theorem Move.covered (hlaw : Notifies body waits demand closed) {s t : State τ σ κ ρ} {a : Action τ κ}
    (hmove : Move body s a t) (h : Served waits demand closed s) {u : τ} {call : κ}
    (hasleep : t.control u = .asleep call) (hopen : ¬ closed t.data) :
    demand t.data ≤ t.total (Control.weight waits) := by
  cases hmove.asleep_before hasleep with
  | inr hwait =>
    have hdemand := (hlaw.wait call s.data hwait.1).2.1
    rw [hwait.2, hdemand]
    exact Nat.zero_le _
  | inl hbefore =>
    have hcovered := h.covered u call hbefore
    have hkept {thread : τ} {control : Control κ ρ} (hdata : t.data = s.data)
        (htotal : t.total (Control.weight waits) = (s.moved thread control).total (Control.weight waits))
        (hweight : (s.control thread).weight waits ≤ control.weight waits) :
        demand t.data ≤ t.total (Control.weight waits) := by
      have hsum := s.total_moved (Control.weight waits) thread control
      have hle := hcovered (hdata ▸ hopen)
      rw [hdata, htotal]
      omega
    cases hmove with
    | call hidle => exact hkept rfl rfl (by rw [hidle]; exact Nat.zero_le _)
    | enter hfree hat => exact hkept rfl rfl (by rw [hat]; exact Nat.zero_le _)
    | resume hfree hat => exact hkept rfl rfl (by rw [hat]; exact Nat.le_refl _)
    | sleep hat hbody =>
      have hdemand := (hlaw.wait _ s.data hbody).2.1
      simp only [State.moved_data, hdemand]
      exact Nat.zero_le _
    | @finish thread other next result signal hat hbody =>
      obtain ⟨hbefore, hdemand⟩ := hlaw.finish other s.data next result signal hbody hopen
      have hle := hcovered hbefore
      have hmoved := s.total_moved (Control.weight waits) thread (.after result signal)
      have hpart := s.total_eq (Control.weight waits) thread
      have hholding : (Control.holding other : Control κ ρ).weight waits = (waits other).toNat := rfl
      have hafter : (Control.after result signal : Control κ ρ).weight waits = signal.isSome.toNat := by
        cases signal <;> rfl
      rw [hat] at hmoved hpart
      change demand next ≤ (s.moved thread (.after result signal)).total (Control.weight waits)
      omega
    | @signalOne thread waiting result other hat hother =>
      have hwaits := h.asleep_waits waiting other hother
      have hne : thread ≠ waiting := fun heq => by simp [heq ▸ hat] at hother
      have hfirst := s.total_moved (Control.weight waits) waiting (.woken other)
      have hsecond := (s.moved waiting (.woken other)).total_moved (Control.weight waits) thread (.leaving result)
      have hle := hcovered hopen
      simp only [hother, State.moved_control, Function.update_of_ne hne, hat, Control.weight, hwaits,
        Bool.toNat_true] at hfirst hsecond
      simp only [State.moved_data]
      omega
    | signalNone hat hnone =>
      have hawake := hnone u
      simp [hbefore, Control.isAsleep] at hawake
    | @signalAll thread result hat =>
      by_cases hu : u = thread
      · simp [hu] at hasleep
      · simp [hu, hbefore, Control.wake] at hasleep
    | unlock hat => exact hkept rfl rfl (by rw [hat]; exact Nat.le_refl _)
    | wakeup hat => exact hkept rfl rfl (by rw [hat]; exact Nat.zero_le _)

theorem Move.closing (hlaw : Notifies body waits demand closed) {s t : State τ σ κ ρ} {a : Action τ κ}
    (hmove : Move body s a t) (hlocked : s.Locked) (h : Served waits demand closed s) {u : τ} {call : κ}
    (hasleep : t.control u = .asleep call) (hclosed : closed t.data) :
    ∃ closer result, t.control closer = .signalling result .all := by
  cases hmove.asleep_before hasleep with
  | inr hwait => exact absurd (hwait.2 ▸ hclosed) (hlaw.wait call s.data hwait.1).2.2
  | inl hbefore =>
    have hclosing := h.closing u call hbefore
    have hkept {thread : τ} {control : Control κ ρ} (hdata : t.data = s.data)
        (hcontrol : t.control = (s.moved thread control).control)
        (hat : ∀ result, s.control thread ≠ .signalling result .all) :
        ∃ closer result, t.control closer = .signalling result .all := by
      obtain ⟨closer, result, hcloser⟩ := hclosing (hdata ▸ hclosed)
      have hne : closer ≠ thread := fun heq => hat result (heq ▸ hcloser)
      exact ⟨closer, result, by simp [hcontrol, hne, hcloser]⟩
    cases hmove with
    | call hidle => exact hkept rfl rfl (by simp [hidle])
    | enter hfree hat => exact hkept rfl rfl (by simp [hat])
    | resume hfree hat => exact hkept rfl rfl (by simp [hat])
    | sleep hat hbody => exact hkept rfl rfl (by simp [hat])
    | @finish thread other next result signal hat hbody =>
      cases hlaw.close other s.data next result signal hbody hclosed with
      | inl hbefore =>
        obtain ⟨closer, _, hcloser⟩ := hclosing hbefore
        have hsame : closer = thread := hlocked.unique (by rw [hcloser]; rfl) (by rw [hat]; rfl)
        rw [hsame, hat] at hcloser
        cases hcloser
      | inr hall => exact ⟨thread, result, by simp [hall, Control.after]⟩
    | @signalOne thread waiting result other hat hother =>
      obtain ⟨closer, _, hcloser⟩ := hclosing hclosed
      have hsame : closer = thread := hlocked.unique (by rw [hcloser]; rfl) (by rw [hat]; rfl)
      rw [hsame, hat] at hcloser
      cases hcloser
    | signalNone hat hnone => exact hkept rfl rfl (by simp [hat])
    | @signalAll thread result hat =>
      by_cases hu : u = thread
      · simp [hu] at hasleep
      · simp [hu, hbefore, Control.wake] at hasleep
    | unlock hat => exact hkept rfl rfl (by simp [hat])
    | wakeup hat => exact hkept rfl rfl (by simp [hat])

theorem Move.served (hlaw : Notifies body waits demand closed) {s t : State τ σ κ ρ} {a : Action τ κ}
    (hmove : Move body s a t) (hlocked : s.Locked) (h : Served waits demand closed s) :
    Served waits demand closed t where
  asleep_waits := fun _ _ hasleep => hmove.asleep_waits hlaw h hasleep
  covered := fun _ _ hasleep hopen => hmove.covered hlaw h hasleep hopen
  closing := fun _ _ hasleep hclosed => hmove.closing hlaw hlocked h hasleep hclosed

theorem run_served (hlaw : Notifies body waits demand closed) {data : σ} {ops : List (Action τ κ)}
    {t : State τ σ κ ρ} (hrun : run (step body) (.initial data) ops = some t) :
    Served waits demand closed t := by
  have hboth := run_invariant (fun s : State τ σ κ ρ => s.Locked ∧ Served waits demand closed s)
    (fun _ _ _ h ha => ⟨(move_of_step ha).locked h.1, (move_of_step ha).served hlaw h.1 h.2⟩) ops
    ⟨State.initial_locked data, nofun, nofun, nofun⟩ hrun
  exact hboth.2

/-- Unless all rest some thread can go on. -/
theorem exists_step {s : State τ σ κ ρ} (h : s.Locked) (hbusy : ¬ s.AtRest) :
    ∃ a : Action τ κ, a.isInternal = true ∧ (step body s a).isSome = true := by
  cases howner : s.owner with
  | some thread =>
    have hinside := (h thread).mpr howner
    cases hat : s.control thread with
    | holding call =>
      refine ⟨.work thread, rfl, ?_⟩
      cases hbody : body call s.data <;> simp only [step, hat, hbody, Option.isSome_some]
    | signalling result signal =>
      cases signal with
      | one =>
        by_cases hnone : ∀ u, (s.control u).isAsleep = false
        · exact ⟨.signal thread none, rfl, by simp [step, hat, notify, hnone]⟩
        · obtain ⟨u, hu⟩ := not_forall.mp hnone
          exact ⟨.signal thread (some u), rfl, by simp [step, hat, notify, hu]⟩
      | all => exact ⟨.signal thread none, rfl, by simp [step, hat, notify]⟩
    | leaving result => exact ⟨.unlock thread, rfl, by simp [step, hat]⟩
    | _ => simp [hat, Control.isInside] at hinside
  | none =>
    obtain ⟨thread, hthread⟩ := not_forall.mp hbusy
    have houtside : ¬ (s.control thread).isInside = true := fun hin => by simp [(h thread).mp hin] at howner
    cases hat : s.control thread with
    | entering call => exact ⟨.lock thread, rfl, by simp [step, howner, hat]⟩
    | woken call => exact ⟨.lock thread, rfl, by simp [step, howner, hat]⟩
    | idle => simp [hat, Control.rests] at hthread
    | asleep call => simp [hat, Control.rests] at hthread
    | _ => simp [hat, Control.isInside] at houtside

theorem Move.rank_lt {s t : State τ σ κ ρ} {a : Action τ κ} (hmove : Move body s a t)
    (hinternal : a.isInternal = true) : t.rank < s.rank := by
  have hless {thread : τ} {control : Control κ ρ} {t : State τ σ κ ρ}
      (htotal : t.rank = (s.moved thread control).rank)
      (hrank : control.rank (Fintype.card τ) < (s.control thread).rank (Fintype.card τ)) : t.rank < s.rank := by
    have hsum := s.total_moved (Control.rank (Fintype.card τ)) thread control
    rw [htotal]
    simp only [State.rank]
    omega
  cases hmove with
  | call hidle => cases hinternal
  | enter hfree hat => exact hless rfl (by rw [hat]; exact Nat.lt_succ_self _)
  | resume hfree hat => exact hless rfl (by rw [hat]; exact Nat.lt_succ_self _)
  | sleep hat hbody => exact hless rfl (by rw [hat]; exact Nat.lt_succ_self _)
  | @finish thread call next result signal hat hbody =>
    have hrank : (Control.after result signal : Control κ ρ).rank (Fintype.card τ) <
        (s.control thread).rank (Fintype.card τ) := by
      rw [hat]
      cases signal <;> simp only [Control.after, Control.rank] <;> omega
    exact hless rfl hrank
  | @signalOne thread waiting result call hat hasleep =>
    have hne : thread ≠ waiting := fun heq => by simp [heq ▸ hat] at hasleep
    have hfirst := s.total_moved (Control.rank (Fintype.card τ)) waiting (.woken call)
    have hsecond :=
      (s.moved waiting (.woken call)).total_moved (Control.rank (Fintype.card τ)) thread (.leaving result)
    have hcard : 0 < Fintype.card τ := Fintype.card_pos_iff.mpr ⟨thread⟩
    simp only [hasleep, State.moved_control, Function.update_of_ne hne, hat, Control.rank] at hfirst hsecond
    simp only [State.rank]
    omega
  | signalNone hat hnone => exact hless rfl (by rw [hat]; simp only [Control.rank]; omega)
  | @signalAll thread result hat =>
    have hwoken : s.allWoken.total (Control.rank (Fintype.card τ)) ≤
        s.total (Control.rank (Fintype.card τ)) + Fintype.card τ * 2 := by
      have hthread : ∀ u ∈ Finset.univ, (s.allWoken.control u).rank (Fintype.card τ) ≤
          (s.control u).rank (Fintype.card τ) + 2 := by
        intro u _
        rw [State.allWoken_control]
        cases s.control u <;> simp only [Control.wake, Control.rank] <;> omega
      have hsum := Finset.sum_le_sum hthread
      simpa [State.total, Finset.sum_add_distrib] using hsum
    have hmoved := s.allWoken.total_moved (Control.rank (Fintype.card τ)) thread (.leaving result)
    simp only [State.allWoken_control, hat, Control.wake, Control.rank] at hmoved
    simp only [State.rank]
    omega
  | unlock hat => exact hless rfl (by rw [hat]; exact Nat.lt_succ_self _)
  | wakeup hat => cases hinternal

/-- However the steps inside calls are ordered, there are only so many. -/
theorem run_length_le {s t : State τ σ κ ρ} {ops : List (Action τ κ)}
    (hinternal : ∀ a ∈ ops, a.isInternal = true) (hrun : run (step body) s ops = some t) : ops.length + t.rank ≤ s.rank := by
  induction ops generalizing s with
  | nil =>
    obtain rfl := Option.some.inj hrun
    simp
  | cons a ops ih =>
    rw [run_cons, Option.bind_eq_some_iff] at hrun
    obtain ⟨s', ha, hrun⟩ := hrun
    have hfirst := (move_of_step ha).rank_lt (hinternal a List.mem_cons_self)
    have hrest := ih (fun b hb => hinternal b (List.mem_cons_of_mem a hb)) hrun
    simp only [List.length_cons]
    omega

end Runs

end Monitor
