import Mathlib.Data.List.Basic

/-! Lists that keep one entry for a key where it was first added, and that are
searched for the first entry whose key matches. -/

namespace FirstMatch

variable {α κ : Type*} [DecidableEq κ]

/-- The list with `a` in the place of the first entry of its key, or at the
end. -/
def assign (key : α → κ) (a : α) : List α → List α
  | [] => [a]
  | b :: entries => if key b = key a then a :: entries else b :: assign key a entries

/-- A new value for a key takes the place of the first match if it has this key,
and is the first match if there was none. -/
theorem find?_assign (key : α → κ) (p : κ → Bool) (a : α) (entries : List α) :
    (assign key a entries).find? (fun b => p (key b)) =
      match entries.find? (fun b => p (key b)) with
      | some b => if key b = key a then some a else some b
      | none => if p (key a) then some a else none := by
  induction entries with
  | nil => cases h : p (key a) <;> simp [assign, h]
  | cons b entries ih =>
    unfold assign
    by_cases hkey : key b = key a
    · rw [if_pos hkey]
      cases h : p (key a) with
      | true => simp [hkey, h]
      | false =>
        rw [List.find?_cons_of_neg (by simp [h]), List.find?_cons_of_neg (by simp [hkey, h])]
        cases hfound : entries.find? fun b => p (key b) with
        | none => simp
        | some c =>
          -- A match does not have the key of `a`, which does not match.
          have hother : key c ≠ key a := by
            intro heq
            have hmatch := List.find?_some hfound
            simp [heq, h] at hmatch
          simp [hother]
    · rw [if_neg hkey]
      cases h : p (key b) with
      | true => simp [h, hkey]
      | false => simp [h, ih]

end FirstMatch
