import Mathlib.Logic.Function.Basic
import KernelcModerne.Lib.Transition

/-! Calls of a function that are answered from a table of earlier results. -/

open Transition

namespace Memo

variable {β κ γ : Type*} (key : β → κ) (f : β → γ) (stores : β → Bool)

/-- What a call answers: the result under its key, or that of the function. -/
def answer (table : κ → Option γ) (b : β) : γ := (table (key b)).getD (f b)

/-- A call whose key is not in the table puts its result there, if it is one to
store. -/
def next [DecidableEq κ] (table : κ → Option γ) (b : β) : κ → Option γ :=
  if table (key b) = none ∧ stores b then Function.update table (key b) (some (f b)) else table

/-- The second call may be answered with what the first one stores. -/
def Agree (a b : β) : Prop := key a = key b → stores a = true → f b = f a

variable {key f stores} {table : κ → Option γ} {done : List β} {b : β}

/-- The table holds the results of the calls `done`, and no others. -/
structure Holds (key : β → κ) (f : β → γ) (stores : β → Bool) (table : κ → Option γ) (done : List β) :
    Prop where
  origin : ∀ k v, table k = some v → ∃ a ∈ done, key a = k ∧ stores a = true
  result : ∀ a ∈ done, stores a = true → table (key a) = some (f a)

theorem holds_nil : Holds key f stores (fun _ => none) [] where
  origin k v h := by cases h
  result a ha := by cases ha

/-- A call is answered as the function answers exactly when it agrees with the
calls before it. -/
theorem Holds.answer_eq_iff (h : Holds key f stores table done) :
    answer key f table b = f b ↔ ∀ a ∈ done, Agree key f stores a b := by
  unfold answer
  cases hlookup : table (key b) with
  | none =>
    refine iff_of_true rfl fun a ha hkey hstores => ?_
    have hresult := h.result a ha hstores
    rw [hkey, hlookup] at hresult
    cases hresult
  | some v =>
    rw [Option.getD_some]
    constructor
    · intro hv a ha hkey hstores
      have hresult := h.result a ha hstores
      rw [hkey, hlookup] at hresult
      exact hv.symm.trans (Option.some.inj hresult)
    · intro hagree
      obtain ⟨a, ha, hkey, hstores⟩ := h.origin (key b) v hlookup
      have hresult := h.result a ha hstores
      rw [hkey, hlookup] at hresult
      exact (Option.some.inj hresult).trans (hagree a ha hkey hstores).symm

/-- A call changes nothing where its result is there, or none to store. -/
theorem Holds.keep (h : Holds key f stores table done)
    (hb : stores b = true → table (key b) = some (f b)) : Holds key f stores table (done ++ [b]) where
  origin k v hlookup := by
    obtain ⟨a, ha, hkey, hstores⟩ := h.origin k v hlookup
    exact ⟨a, List.mem_append_left _ ha, hkey, hstores⟩
  result a ha hstores := by
    cases List.mem_append.mp ha with
    | inl hdone => exact h.result a hdone hstores
    | inr hlast =>
      obtain rfl := List.mem_singleton.mp hlast
      exact hb hstores

variable [DecidableEq κ]

/-- A call whose key is new leaves its result. -/
theorem Holds.store (h : Holds key f stores table done) (hnew : table (key b) = none)
    (hb : stores b = true) :
    Holds key f stores (Function.update table (key b) (some (f b))) (done ++ [b]) where
  origin k v hlookup := by
    by_cases hk : k = key b
    · exact ⟨b, List.mem_append_right _ (List.mem_singleton_self b), hk.symm, hb⟩
    · rw [Function.update_of_ne hk] at hlookup
      obtain ⟨a, ha, hkey, hstores⟩ := h.origin k v hlookup
      exact ⟨a, List.mem_append_left _ ha, hkey, hstores⟩
  result a ha hstores := by
    cases List.mem_append.mp ha with
    | inl hdone =>
      have hresult := h.result a hdone hstores
      have hne : key a ≠ key b := by
        intro hkey
        rw [hkey, hnew] at hresult
        cases hresult
      rw [Function.update_of_ne hne]
      exact hresult
    | inr hlast =>
      obtain rfl := List.mem_singleton.mp hlast
      exact Function.update_self ..

/-- A call that is answered as the function answers keeps the table in order. -/
theorem Holds.next (h : Holds key f stores table done) (hanswer : answer key f table b = f b) :
    Holds key f stores (next key f stores table b) (done ++ [b]) := by
  unfold Memo.next
  split
  · next hnew => exact h.store hnew.1 hnew.2
  · next hold =>
    apply h.keep
    intro hstores
    cases hlookup : table (key b) with
    | none => exact absurd ⟨hlookup, hstores⟩ hold
    | some v =>
      rw [answer, hlookup, Option.getD_some] at hanswer
      rw [hanswer]

theorem Holds.along_iff (h : Holds key f stores table done) (calls : List β) :
    Along (fun table b => some (Memo.next key f stores table b)) (fun table b _ => answer key f table b = f b)
      table calls ↔
      (∀ a ∈ done, ∀ b ∈ calls, Agree key f stores a b) ∧ calls.Pairwise (Agree key f stores) := by
  induction calls generalizing table done with
  | nil => simp [Along]
  | cons b calls ih =>
    simp only [Along, Option.some.injEq, forall_eq', h.answer_eq_iff]
    constructor
    · rintro ⟨hfirst, hrest⟩
      obtain ⟨hdone, hpairwise⟩ := (ih (h.next (h.answer_eq_iff.mpr hfirst))).mp hrest
      refine ⟨fun a ha => List.forall_mem_cons.mpr ⟨hfirst a ha, hdone a (List.mem_append_left _ ha)⟩,
        List.pairwise_cons.mpr ⟨hdone b (List.mem_append_right _ (List.mem_singleton_self b)), hpairwise⟩⟩
    · rintro ⟨hdone, hpairwise⟩
      obtain ⟨hb, hcalls⟩ := List.pairwise_cons.mp hpairwise
      have hfirst : ∀ a ∈ done, Agree key f stores a b := fun a ha => hdone a ha b List.mem_cons_self
      refine ⟨hfirst, (ih (h.next (h.answer_eq_iff.mpr hfirst))).mpr ⟨fun a ha c hc => ?_, hcalls⟩⟩
      cases List.mem_append.mp ha with
      | inl hin => exact hdone a hin c (List.mem_cons_of_mem _ hc)
      | inr hlast =>
        obtain rfl := List.mem_singleton.mp hlast
        exact hb c hc

/-- From an empty table on, every call is answered as the function answers
exactly when the calls agree with those before them. -/
theorem along_answer_iff (calls : List β) :
    Along (fun table b => some (next key f stores table b)) (fun table b _ => answer key f table b = f b)
      (fun _ => none) calls ↔ calls.Pairwise (Agree key f stores) := by
  rw [holds_nil.along_iff]
  simp

end Memo
