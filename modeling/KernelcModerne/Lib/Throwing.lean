import Mathlib.Logic.Basic

/-! Programs that change a state and may end with an exception. What was changed
before the exception stays changed. -/

abbrev Throwing (ε σ : Type) := ExceptT ε (StateM σ)

namespace Throwing

variable {ε σ α β : Type}

/-- How a run from `s` ends, and the state it leaves. -/
def runAt (m : Throwing ε σ α) (s : σ) : Except ε α × σ :=
  Id.run (StateT.run (ExceptT.run m) s)

/-- A call of code outside the program, with its answer. -/
def call (answer : Except ε α) : Throwing ε σ α := ExceptT.mk (pure answer)

@[simp] theorem runAt_pure (a : α) (s : σ) : runAt (pure a : Throwing ε σ α) s = (.ok a, s) := rfl

@[simp] theorem runAt_throw (e : ε) (s : σ) :
    runAt (throw e : Throwing ε σ α) s = (.error e, s) := rfl

@[simp] theorem runAt_call (answer : Except ε α) (s : σ) :
    runAt (call answer : Throwing ε σ α) s = (answer, s) := rfl

@[simp] theorem runAt_modify (f : σ → σ) (s : σ) :
    runAt (modify f : Throwing ε σ PUnit) s = (.ok ⟨⟩, f s) := rfl

theorem runAt_bind (m : Throwing ε σ α) (f : α → Throwing ε σ β) (s : σ) :
    runAt (m >>= f) s = match runAt m s with
      | (.ok a, t) => runAt (f a) t
      | (.error e, t) => (.error e, t) := by
  simp only [runAt, ExceptT.run_bind, StateT.run_bind, Id.run_bind]
  cases (StateT.run (ExceptT.run m) s).run with
  | mk result t => cases result <;> rfl

theorem runAt_tryCatch (m : Throwing ε σ α) (handler : ε → Throwing ε σ α) (s : σ) :
    runAt (tryCatch m handler) s = match runAt m s with
      | (.ok a, t) => (.ok a, t)
      | (.error e, t) => runAt (handler e) t := by
  simp only [runAt, tryCatch, tryCatchThe, MonadExceptOf.tryCatch, ExceptT.tryCatch, ExceptT.run_mk,
    StateT.run_bind, Id.run_bind]
  simp only [ExceptT.run]
  cases (StateT.run m s).run with
  | mk result t => cases result <;> rfl

@[simp] theorem runAt_map (f : α → β) (m : Throwing ε σ α) (s : σ) :
    runAt (f <$> m) s = ((runAt m s).1.map f, (runAt m s).2) := by
  rw [← bind_pure_comp, runAt_bind]
  cases runAt m s with
  | mk result t => cases result <;> rfl

/-- A run that fails ends in the state `s₀`. -/
def Restores (failed : Except ε α → Prop) (s₀ : σ) (m : Throwing ε σ α) (s : σ) : Prop :=
  failed (m.runAt s).1 → (m.runAt s).2 = s₀

section Restores

variable {failed : Except ε α → Prop} {s₀ s : σ}

/-- After a call that may end in an exception. -/
theorem restores_call_bind {answer : Except ε β} {f : β → Throwing ε σ α} :
    Restores failed s₀ (call answer >>= f) s ↔
      (∀ b, answer = .ok b → Restores failed s₀ (f b) s) ∧
        ∀ e, answer = .error e → failed (.error e) → s = s₀ := by
  cases answer with
  | ok b => simp [Restores, runAt_bind]
  | error e => simp [Restores, runAt_bind]

/-- While nothing has changed yet, only the continuations that are reached count. -/
theorem restores_call_bind_self {answer : Except ε β} {f : β → Throwing ε σ α} :
    Restores failed s (call answer >>= f) s ↔
      ∀ b, answer = .ok b → Restores failed s (f b) s := by
  rw [restores_call_bind]
  simp

theorem restores_pure_self {a : α} : Restores failed s (pure a) s := fun _ => rfl

/-- A test that ends the run before anything has changed. -/
theorem restores_ite_pure {c : Prop} [Decidable c] {a : α} {m : Throwing ε σ α} :
    Restores failed s (if c then pure a else m) s ↔ (¬ c → Restores failed s m s) := by
  by_cases hc : c
  · rw [if_pos hc]
    exact iff_of_true restores_pure_self fun hnot => absurd hc hnot
  · rw [if_neg hc, imp_iff_right hc]

/-- A call that has to answer true before anything has changed. -/
theorem restores_require {answer : Except ε Bool} {a : α} {m : Throwing ε σ α} :
    Restores failed s (call answer >>= fun granted => if !granted then pure a else m) s ↔
      (answer = .ok true → Restores failed s m s) := by
  simp only [restores_call_bind_self, restores_ite_pure, Bool.not_eq_true', Bool.not_eq_false]
  exact ⟨fun h hyes => h true hyes rfl, fun h granted hgranted hyes => h (hyes ▸ hgranted)⟩

theorem restores_modify_bind {g : σ → σ} {f : PUnit → Throwing ε σ α} :
    Restores failed s₀ (modify g >>= f) s ↔ Restores failed s₀ (f ⟨⟩) (g s) := by
  simp [Restores, runAt_bind]

end Restores

/-- Where the run returns, `Q` holds of the value and of the state it leaves. -/
def Returns (Q : α → σ → Prop) (m : Throwing ε σ α) : Prop :=
  ∀ s a t, m.runAt s = (.ok a, t) → Q a t

namespace Returns

variable {Q : α → σ → Prop} {m : Throwing ε σ α}

/-- A value that meets `Q` in every state. -/
theorem pure {a : α} (h : ∀ s, Q a s) : Returns Q (Pure.pure a : Throwing ε σ α) := by
  intro s b t hrun
  cases hrun
  exact h s

theorem throw (e : ε) : Returns Q (MonadExcept.throw e : Throwing ε σ α) := by
  intro s b t hrun
  cases hrun

/-- What the last part of a run returns. -/
theorem bind {before : Throwing ε σ β} {f : β → Throwing ε σ α} (h : ∀ b, Returns Q (f b)) :
    Returns Q (before >>= f) := by
  intro s a t hrun
  rw [runAt_bind] at hrun
  cases hbefore : runAt before s with
  | mk result u =>
    rw [hbefore] at hrun
    cases result with
    | ok b => exact h b u a t hrun
    | error e => cases hrun

/-- Behind a call the answer is known. -/
theorem call_bind {answer : Except ε β} {f : β → Throwing ε σ α} (h : ∀ b, answer = .ok b → Returns Q (f b)) :
    Returns Q (call answer >>= f) := by
  intro s a t hrun
  rw [runAt_bind, runAt_call] at hrun
  cases answer with
  | ok b => exact h b rfl s a t hrun
  | error e => cases hrun

theorem tryCatch {handler : ε → Throwing ε σ α} (hm : Returns Q m) (hhandler : ∀ e, Returns Q (handler e)) :
    Returns Q (MonadExcept.tryCatch m handler) := by
  intro s a t hrun
  rw [runAt_tryCatch] at hrun
  cases hbody : runAt m s with
  | mk result u =>
    rw [hbody] at hrun
    cases result with
    | ok b =>
      cases hrun
      exact hm s _ _ hbody
    | error e => exact hhandler e u a t hrun

end Returns

/-- From every state the run ends with `result`, and what `log` shows of the
state grows by `entries`. -/
def Emits {κ : Type} (log : σ → List κ) (m : Throwing ε σ α) (result : Except ε α)
    (entries : List κ) : Prop :=
  ∀ s, (m.runAt s).1 = result ∧ log (m.runAt s).2 = log s ++ entries

namespace Emits

variable {κ : Type} {log : σ → List κ} {m : Throwing ε σ α} {entries : List κ}

theorem pure (a : α) : Emits log (Pure.pure a : Throwing ε σ α) (.ok a) [] :=
  fun s => ⟨rfl, (List.append_nil (log s)).symm⟩

theorem throw (e : ε) : Emits log (MonadExcept.throw e : Throwing ε σ α) (.error e) [] :=
  fun s => ⟨rfl, (List.append_nil (log s)).symm⟩

theorem call (answer : Except ε α) : Emits log (Throwing.call answer : Throwing ε σ α) answer [] :=
  fun s => ⟨rfl, (List.append_nil (log s)).symm⟩

theorem modify_silent {f : σ → σ} (h : ∀ s, log (f s) = log s) :
    Emits log (MonadState.modifyGet fun s => (⟨⟩, f s) : Throwing ε σ PUnit) (.ok ⟨⟩) [] :=
  fun s => ⟨rfl, (h s).trans (List.append_nil (log s)).symm⟩

theorem modify {f : σ → σ} (h : ∀ s, log (f s) = log s ++ entries) :
    Emits log (MonadState.modifyGet fun s => (⟨⟩, f s) : Throwing ε σ PUnit) (.ok ⟨⟩) entries :=
  fun s => ⟨rfl, h s⟩

theorem bind {a : α} {f : α → Throwing ε σ β} {result : Except ε β} {more : List κ}
    (hm : Emits log m (.ok a) entries) (hf : Emits log (f a) result more) :
    Emits log (m >>= f) result (entries ++ more) := by
  intro s
  obtain ⟨hresult, hlog⟩ := hm s
  rw [runAt_bind]
  cases hrun : runAt m s with
  | mk r t =>
    rw [hrun] at hresult hlog
    cases hresult
    obtain ⟨hlast, hgrown⟩ := hf t
    refine ⟨hlast, ?_⟩
    rw [← List.append_assoc, ← hlog]
    exact hgrown

/-- After a step that shows nothing. -/
theorem bind_silent {a : α} {f : α → Throwing ε σ β} {result : Except ε β} {more : List κ}
    (hm : Emits log m (.ok a) []) (hf : Emits log (f a) result more) :
    Emits log (m >>= f) result more :=
  hm.bind hf

theorem bind_error {e : ε} (f : α → Throwing ε σ β) (hm : Emits log m (.error e) entries) :
    Emits log (m >>= f) (.error e) entries := by
  intro s
  obtain ⟨hresult, hlog⟩ := hm s
  rw [runAt_bind]
  cases hrun : runAt m s with
  | mk r t =>
    rw [hrun] at hresult hlog
    cases hresult
    exact ⟨rfl, hlog⟩

theorem tryCatch_ok {a : α} (handler : ε → Throwing ε σ α) (hm : Emits log m (.ok a) entries) :
    Emits log (tryCatch m handler) (.ok a) entries := by
  intro s
  obtain ⟨hresult, hlog⟩ := hm s
  rw [runAt_tryCatch]
  cases hrun : runAt m s with
  | mk r t =>
    rw [hrun] at hresult hlog
    cases hresult
    exact ⟨rfl, hlog⟩

theorem tryCatch_error {e : ε} {handler : ε → Throwing ε σ α} {result : Except ε α}
    {more : List κ} (hm : Emits log m (.error e) entries) (hhandler : Emits log (handler e) result more) :
    Emits log (tryCatch m handler) result (entries ++ more) := by
  intro s
  obtain ⟨hresult, hlog⟩ := hm s
  rw [runAt_tryCatch]
  cases hrun : runAt m s with
  | mk r t =>
    rw [hrun] at hresult hlog
    cases hresult
    obtain ⟨hlast, hgrown⟩ := hhandler t
    refine ⟨hlast, ?_⟩
    rw [← List.append_assoc, ← hlog]
    exact hgrown

end Emits

end Throwing
