import Mathlib.Algebra.Group.Nat.Defs
import Mathlib.Data.List.Basic

/-! `for (counter = 0; counter < bound; counter++)`, where the counter has `w`
bits and wraps. -/

namespace CountedLoop

variable {w : Nat} {σ : Type*}

/-- The loop from a counter on, for at most `fuel` tests of its condition. A body
that does not end has no result. -/
def runFrom (bound : Nat) (body : BitVec w → σ → Option σ) : Nat → BitVec w → σ → Option σ
  | 0, _, _ => none
  | fuel + 1, counter, s =>
    if counter.toNat < bound then (body counter s).bind (runFrom bound body fuel (counter + 1)) else some s

def run (bound : Nat) (body : BitVec w → σ → Option σ) (fuel : Nat) (s : σ) : Option σ :=
  runFrom bound body fuel 0 s

variable {bound fuel : Nat} {body : BitVec w → σ → Option σ}

theorem runFrom_eq_none (hbound : 2 ^ w ≤ bound) (fuel : Nat) (counter : BitVec w) (s : σ) :
    runFrom bound body fuel counter s = none := by
  induction fuel generalizing counter s with
  | zero => rfl
  | succ fuel ih =>
    have hlt : counter.toNat < bound := Nat.lt_of_lt_of_le counter.isLt hbound
    rw [runFrom, if_pos hlt, Option.bind_eq_none_iff]
    exact fun s' _ => ih (counter + 1) s'

/-- A bound that the counter cannot reach is never reached. -/
theorem run_eq_none (hbound : 2 ^ w ≤ bound) (fuel : Nat) (s : σ) : run bound body fuel s = none :=
  runFrom_eq_none hbound fuel 0 s

/-- From a number below the bound on, `count` passes are left. -/
theorem runFrom_eq_foldl (hbound : bound < 2 ^ w) {pass : σ → BitVec w → σ}
    (hbody : ∀ counter s, body counter s = some (pass s counter)) {done count : Nat} (hsum : done + count = bound)
    (hfuel : count < fuel) (s : σ) :
    runFrom bound body fuel (BitVec.ofNat w done) s =
      some (((List.range' done count).map (BitVec.ofNat w)).foldl pass s) := by
  have hcounter : (BitVec.ofNat w done).toNat = done := by
    rw [BitVec.toNat_ofNat, Nat.mod_eq_of_lt (by omega)]
  obtain ⟨fuel, rfl⟩ := Nat.exists_eq_succ_of_ne_zero (Nat.ne_zero_of_lt hfuel)
  induction count generalizing done fuel s with
  | zero =>
    rw [runFrom, if_neg (by omega)]
    rfl
  | succ count ih =>
    have hnext : BitVec.ofNat w done + 1 = BitVec.ofNat w (done + 1) := (BitVec.ofNat_add done 1).symm
    obtain ⟨fuel, rfl⟩ := Nat.exists_eq_succ_of_ne_zero (show fuel ≠ 0 by omega)
    rw [runFrom, if_pos (by omega), hbody, Option.bind_some, hnext]
    exact ih (by omega) _ (by rw [BitVec.toNat_ofNat, Nat.mod_eq_of_lt (by omega)]) fuel (by omega)

/-- A loop whose bound the counter can reach, with a body that ends, goes once
through the numbers below the bound. -/
theorem run_eq_foldl (hbound : bound < 2 ^ w) (hfuel : bound < fuel) {pass : σ → BitVec w → σ}
    (hbody : ∀ counter s, body counter s = some (pass s counter)) (s : σ) :
    run bound body fuel s = some (((List.range bound).map (BitVec.ofNat w)).foldl pass s) := by
  rw [List.range_eq_range']
  exact runFrom_eq_foldl hbound hbody (Nat.zero_add bound) hfuel s

end CountedLoop
