import Mathlib.Init

/-! `for (int i = start; i < stop; i++)`, where an `int` has 32 bits. -/

namespace IntLoop

variable {σ : Type*}

/-- Below another value `i++` does not overflow. -/
theorem toInt_succ {i stop : Int32} (h : i < stop) : (i + 1).toInt = i.toInt + 1 := by
  rw [Int32.lt_iff_toInt_lt] at h
  have hstop := stop.toInt_lt
  have hlow := i.le_toInt
  have hone : (1 : Int32).toInt = 1 := rfl
  rw [Int32.toInt_add, hone]
  apply Int.bmod_eq_of_le
  · omega
  · omega

/-- The loop from `i` on. A body that goes wrong has no result. -/
def run (body : Int32 → σ → Option σ) (i stop : Int32) (s : σ) : Option σ :=
  if _h : i < stop then (body i s).bind fun s => run body (i + 1) stop s else some s
termination_by (stop.toInt - i.toInt).toNat
decreasing_by
  have hnext := toInt_succ _h
  rw [Int32.lt_iff_toInt_lt] at _h
  omega

variable {body : Int32 → σ → Option σ} {stop : Int32}

/-- The rule for the loop: where every pass takes an invariant of the counter and
the state to the next counter, the loop ends, and with the invariant of its
bound. -/
theorem run_spec (P : Int → σ → Prop) {i : Int32} {s : σ}
    (hbody : ∀ j s, i ≤ j → j < stop → P j.toInt s → ∃ after, body j s = some after ∧ P (j.toInt + 1) after)
    (hs : P i.toInt s) : ∃ after, run body i stop s = some after ∧ P (max i.toInt stop.toInt) after := by
  induction i, s using run.induct stop with
  | case1 i s h ih =>
    obtain ⟨next, hnext, hP⟩ := hbody i s (Int32.le_refl i) h hs
    have hsucc := toInt_succ h
    have hlt := Int32.lt_iff_toInt_lt.mp h
    obtain ⟨after, hafter, hend⟩ := ih next
      (fun j s hj => hbody j s (by rw [Int32.le_iff_toInt_le] at *; omega)) (hsucc ▸ hP)
    refine ⟨after, ?_, ?_⟩
    · rw [run, dif_pos h, hnext, Option.bind_some, hafter]
    · have hlast : max i.toInt stop.toInt = max (i + 1).toInt stop.toInt := by omega
      rwa [hlast]
  | case2 i s h =>
    rw [Int32.lt_iff_toInt_lt] at h
    refine ⟨s, ?_, ?_⟩
    · rw [run, dif_neg (by rwa [Int32.lt_iff_toInt_lt])]
    · have hlast : max i.toInt stop.toInt = i.toInt := by omega
      rwa [hlast]

end IntLoop
