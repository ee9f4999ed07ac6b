import Mathlib.Logic.Basic

/-! Calls on a state that is protected by one lock, which is not recursive. A
call knows whether it holds the lock; it has no result when it locks it again,
since it then waits for itself. -/

abbrev Locking (σ : Type) := ReaderT Bool (StateT σ Option)

namespace Locking

variable {σ α β : Type}

/-- The result of a call and the state it leaves, from `s` on, where `held` says
whether it holds the lock. -/
def runAt (m : Locking σ α) (held : Bool) (s : σ) : Option (α × σ) := StateT.run (ReaderT.run m held) s

/-- A block under a guard that locks and unlocks. -/
def lockGuard (m : Locking σ α) : Locking σ α := fun held s => if held then none else m.runAt true s

theorem runAt_bind (m : Locking σ α) (f : α → Locking σ β) (held : Bool) (s : σ) :
    runAt (m >>= f) held s = (runAt m held s).bind fun r => runAt (f r.1) held r.2 := rfl

@[simp] theorem runAt_get (held : Bool) (s : σ) : runAt (get : Locking σ σ) held s = some (s, s) := rfl

@[simp] theorem runAt_pure (a : α) (held : Bool) (s : σ) :
    runAt (pure a : Locking σ α) held s = some (a, s) := rfl

@[simp] theorem runAt_lockGuard_false (m : Locking σ α) (s : σ) :
    runAt (lockGuard m) false s = runAt m true s := rfl

@[simp] theorem runAt_lockGuard_true (m : Locking σ α) (s : σ) : runAt (lockGuard m) true s = none := rfl

theorem runAt_discard_isSome (m : Locking σ α) (held : Bool) (s : σ) :
    (runAt (Functor.discard m) held s).isSome = (runAt m held s).isSome := by
  have hrun : runAt (Functor.discard m) held s = (m.runAt held s).bind fun r => some (⟨⟩, r.2) := rfl
  rw [hrun]
  cases m.runAt held s with
  | none => rfl
  | some r => rfl

/-- From every state the call ends. -/
def Ends (m : Locking σ α) (held : Bool) : Prop := ∀ s, (m.runAt held s).isSome

/-- The call does not change what `φ` sees of the state. -/
def Leaves {γ : Type} (φ : σ → γ) (m : Locking σ α) (held : Bool) : Prop :=
  ∀ s r, m.runAt held s = some r → φ r.2 = φ s

/-- The call locks while it holds the lock, from every state. -/
def Blocks (m : Locking σ α) (held : Bool) : Prop := ∀ s, m.runAt held s = none

variable {m : Locking σ α} {f : α → Locking σ β} {held : Bool}

theorem Ends.pure (a : α) : Ends (Pure.pure a : Locking σ α) held := fun _ => rfl

theorem Ends.get : Ends (MonadState.get : Locking σ σ) held := fun _ => rfl

theorem Ends.modify (g : σ → σ) : Ends (modify g : Locking σ PUnit) held := fun _ => rfl

theorem Ends.bind (hm : Ends m held) (hf : ∀ a, Ends (f a) held) : Ends (m >>= f) held := by
  intro s
  rw [runAt_bind]
  obtain ⟨⟨a, t⟩, hrun⟩ := Option.isSome_iff_exists.mp (hm s)
  rw [hrun]
  exact hf a t

/-- A call whose result is not used. -/
theorem Ends.discard (hm : Ends m held) : Ends (Functor.discard m) held := by
  intro s
  rw [runAt_discard_isSome]
  exact hm s

theorem Ends.lockGuard (hm : Ends m true) : Ends (lockGuard m) false := fun s => hm s

section

variable {γ : Type} {φ : σ → γ}

theorem Leaves.pure (a : α) : Leaves φ (Pure.pure a : Locking σ α) held := by
  intro s r hrun
  obtain rfl := Option.some.inj hrun
  rfl

theorem Leaves.get : Leaves φ (MonadState.get : Locking σ σ) held := by
  intro s r hrun
  obtain rfl := Option.some.inj hrun
  rfl

theorem Leaves.modify {g : σ → σ} (hg : ∀ s, φ (g s) = φ s) : Leaves φ (modify g : Locking σ PUnit) held := by
  intro s r hrun
  obtain rfl := Option.some.inj hrun
  exact hg s

theorem Leaves.bind (hm : Leaves φ m held) (hf : ∀ a, Leaves φ (f a) held) : Leaves φ (m >>= f) held := by
  intro s r hrun
  rw [runAt_bind, Option.bind_eq_some_iff] at hrun
  obtain ⟨r', hfirst, hrest⟩ := hrun
  exact (hf r'.1 r'.2 r hrest).trans (hm s r' hfirst)

theorem Leaves.discard (hm : Leaves φ m held) : Leaves φ (Functor.discard m) held :=
  .bind hm fun _ => .pure _

theorem Leaves.lockGuard (hm : Leaves φ m true) : Leaves φ (lockGuard m) false := fun s r hrun => hm s r hrun

end

/-- A guard inside a guard. -/
theorem Blocks.lockGuard (m : Locking σ α) : Blocks (lockGuard m) true := fun _ => rfl

theorem Blocks.bind (hm : Blocks m held) (f : α → Locking σ β) : Blocks (m >>= f) held := by
  intro s
  rw [runAt_bind, hm s]
  rfl

/-- A loop whose body blocks ends only over an empty list. -/
theorem runAt_forM_isSome_iff {ι : Type} {body : ι → Locking σ PUnit} (hbody : ∀ i, Blocks (body i) held)
    (items : List ι) (s : σ) : (runAt (items.forM body) held s).isSome ↔ items = [] := by
  cases items with
  | nil => exact iff_of_true rfl rfl
  | cons i items =>
    have hblocks : runAt ((i :: items).forM body) held s = none := (hbody i).bind _ s
    rw [hblocks]
    simp

end Locking
