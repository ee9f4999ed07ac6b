import Mathlib.Init

/-! Texts joined by a separator of two equal characters, which the texts may
hold as well. -/

namespace Separators

/-- Two texts joined by a separator can also be read with the separator further
on. -/
def SplitsLater (left right left' right' : String) : Prop :=
  (left' = left ++ ":" ∧ right = ":" ++ right') ∨
    ∃ between : String, left' = left ++ "::" ++ between ∧ right = between ++ "::" ++ right'

section

variable {α : Type*} {x : α}

/-- `SplitsLater` for lists. -/
def ListSplitsLater (x : α) (left right left' right' : List α) : Prop :=
  (left' = left ++ [x] ∧ right = x :: right') ∨
    ∃ between, left' = left ++ x :: x :: between ∧ right = between ++ x :: x :: right'

variable {left right left' right' : List α}

theorem ListSplitsLater.joined_eq (h : ListSplitsLater x left right left' right') :
    left ++ x :: x :: right = left' ++ x :: x :: right' := by
  cases h with
  | inl htouching =>
    rw [htouching.1, htouching.2]
    simp
  | inr happart =>
    obtain ⟨between, hleft, hright⟩ := happart
    rw [hleft, hright]
    simp

/-- What is before the later separator begins at or behind the earlier one. -/
theorem splitsLater_of_longer {first : List α} (h : x :: x :: right = first ++ x :: x :: right') :
    (first = [] ∧ right = right') ∨ ListSplitsLater x left right (left ++ first) right' := by
  cases first with
  | nil => exact .inl ⟨rfl, by simpa using h⟩
  | cons a first =>
    cases first with
    | nil =>
      simp only [List.cons_append, List.nil_append, List.cons.injEq] at h
      obtain ⟨rfl, _, hright⟩ := h
      exact .inr (.inl ⟨rfl, hright⟩)
    | cons b between =>
      simp only [List.cons_append, List.cons.injEq] at h
      obtain ⟨rfl, rfl, hright⟩ := h
      exact .inr (.inr ⟨between, rfl, hright⟩)

/-- Two pairs have the same joined text exactly where they are equal or one of
them splits it later. -/
theorem list_joined_eq_iff :
    left ++ x :: x :: right = left' ++ x :: x :: right' ↔
      (left = left' ∧ right = right') ∨ ListSplitsLater x left right left' right' ∨
        ListSplitsLater x left' right' left right := by
  constructor
  · intro h
    obtain ⟨first, rfl, hfirst⟩ | ⟨first, rfl, hfirst⟩ := List.append_eq_append_iff.mp h
    · cases splitsLater_of_longer hfirst with
      | inl hsame =>
        obtain ⟨rfl, rfl⟩ := hsame
        exact .inl ⟨(List.append_nil left).symm, rfl⟩
      | inr hlater => exact .inr (.inl hlater)
    · cases splitsLater_of_longer hfirst with
      | inl hsame =>
        obtain ⟨rfl, rfl⟩ := hsame
        exact .inl ⟨List.append_nil left', rfl⟩
      | inr hlater => exact .inr (.inr hlater)
  · rintro (⟨rfl, rfl⟩ | hlater | hlater)
    · rfl
    · exact hlater.joined_eq
    · exact hlater.joined_eq.symm

end

theorem splitsLater_iff {left right left' right' : String} :
    SplitsLater left right left' right' ↔
      ListSplitsLater ':' left.toList right.toList left'.toList right'.toList := by
  have hcolon : ":".toList = [':'] := rfl
  have hseparator : "::".toList = [':', ':'] := rfl
  unfold SplitsLater ListSplitsLater
  simp only [← String.toList_inj, String.toList_append, hcolon, hseparator, List.append_assoc,
    List.cons_append, List.nil_append]
  constructor
  · rintro (htouching | ⟨between, happart⟩)
    · exact .inl htouching
    · exact .inr ⟨between.toList, happart⟩
  · rintro (htouching | ⟨between, happart⟩)
    · exact .inl htouching
    · exact .inr ⟨String.ofList between, by rwa [String.toList_ofList]⟩

/-- The joined text tells two pairs of strings apart unless one of them splits
it later. -/
theorem joined_eq_iff {left right left' right' : String} :
    left ++ "::" ++ right = left' ++ "::" ++ right' ↔
      (left = left' ∧ right = right') ∨ SplitsLater left right left' right' ∨
        SplitsLater left' right' left right := by
  have hseparator : "::".toList = [':', ':'] := rfl
  rw [splitsLater_iff, splitsLater_iff]
  simp only [← String.toList_inj, String.toList_append, hseparator, List.append_assoc, List.cons_append,
    List.nil_append]
  exact list_joined_eq_iff

/-- A text without the character of the separator is not split later. -/
theorem not_splitsLater_of_not_mem {left right left' right' : String} (h : ':' ∉ left'.toList) :
    ¬ SplitsLater left right left' right' := by
  rw [splitsLater_iff]
  rintro (⟨hleft, _⟩ | ⟨between, hleft, _⟩)
  · exact h (by simp [hleft])
  · exact h (by simp [hleft])

end Separators
