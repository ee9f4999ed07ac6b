import Mathlib.Data.List.Infix

/-! The longest of some lists that are prefixes of a list. -/

namespace LongestPrefix

variable {α : Type*} [DecidableEq α]

/-- The longer one of `best` and of `candidate`, if this is a prefix. -/
def better (list best candidate : List α) : List α :=
  if candidate <+: list ∧ best.length < candidate.length then candidate else best

/-- The longest candidate that is a prefix of the list, `[]` where there is
none. -/
def longestPrefix (candidates : List (List α)) (list : List α) : List α :=
  candidates.foldl (better list) []

theorem better_isPrefix {list best : List α} (h : best <+: list) (candidate : List α) :
    better list best candidate <+: list := by
  unfold better
  by_cases hbetter : candidate <+: list ∧ best.length < candidate.length
  · rw [if_pos hbetter]
    exact hbetter.1
  · rwa [if_neg hbetter]

theorem le_length_better (list best candidate : List α) : best.length ≤ (better list best candidate).length := by
  unfold better
  by_cases hbetter : candidate <+: list ∧ best.length < candidate.length
  · rw [if_pos hbetter]
    exact Nat.le_of_lt hbetter.2
  · rw [if_neg hbetter]

theorem length_le_better {list candidate : List α} (h : candidate <+: list) (best : List α) :
    candidate.length ≤ (better list best candidate).length := by
  unfold better
  by_cases hlonger : best.length < candidate.length
  · rw [if_pos ⟨h, hlonger⟩]
  · rw [if_neg fun hbetter => hlonger hbetter.2]
    exact Nat.not_lt.mp hlonger

/-- What the search keeps: a prefix, at least as long as all that it has
seen. -/
theorem foldl_better_spec (candidates : List (List α)) {list best : List α} (h : best <+: list) :
    candidates.foldl (better list) best <+: list ∧
      best.length ≤ (candidates.foldl (better list) best).length ∧
      ∀ candidate ∈ candidates, candidate <+: list →
        candidate.length ≤ (candidates.foldl (better list) best).length := by
  induction candidates generalizing best with
  | nil => exact ⟨h, Nat.le_refl _, nofun⟩
  | cons candidate candidates ih =>
    obtain ⟨hstarts, hbest, hseen⟩ := ih (better_isPrefix h candidate)
    rw [List.foldl_cons]
    refine ⟨hstarts, (le_length_better list best candidate).trans hbest, List.forall_mem_cons.mpr ⟨?_, hseen⟩⟩
    exact fun hcandidate => (length_le_better hcandidate best).trans hbest

theorem foldl_better_mem (candidates : List (List α)) (list best : List α) :
    candidates.foldl (better list) best = best ∨ candidates.foldl (better list) best ∈ candidates := by
  induction candidates generalizing best with
  | nil => exact .inl rfl
  | cons candidate candidates ih =>
    rw [List.foldl_cons]
    cases ih (better list best candidate) with
    | inr hmem => exact .inr (List.mem_cons_of_mem _ hmem)
    | inl heq =>
      rw [heq]
      unfold better
      by_cases hbetter : candidate <+: list ∧ best.length < candidate.length
      · rw [if_pos hbetter]
        exact .inr List.mem_cons_self
      · rw [if_neg hbetter]
        exact .inl rfl

theorem longestPrefix_isPrefix (candidates : List (List α)) (list : List α) :
    longestPrefix candidates list <+: list :=
  (foldl_better_spec candidates List.nil_prefix).1

theorem longestPrefix_mem (candidates : List (List α)) (list : List α) :
    longestPrefix candidates list = [] ∨ longestPrefix candidates list ∈ candidates :=
  foldl_better_mem candidates list []

/-- The prefixes among the candidates are those of the longest one. -/
theorem isPrefix_iff_longestPrefix {candidates : List (List α)} {candidate : List α}
    (hmem : candidate ∈ candidates) (list : List α) :
    candidate <+: list ↔ candidate <+: longestPrefix candidates list := by
  obtain ⟨hstarts, _, hlongest⟩ := foldl_better_spec candidates (List.nil_prefix (l := list))
  constructor
  · exact fun h => List.prefix_of_prefix_length_le h hstarts (hlongest candidate hmem h)
  · exact fun h => h.trans hstarts

/-- Two lists have the same longest prefix among the candidates exactly when
they have the same prefixes there. -/
theorem longestPrefix_eq_iff (candidates : List (List α)) (list list' : List α) :
    longestPrefix candidates list = longestPrefix candidates list' ↔
      ∀ candidate ∈ candidates, candidate <+: list ↔ candidate <+: list' := by
  constructor
  · intro h candidate hmem
    rw [isPrefix_iff_longestPrefix hmem list, h, ← isPrefix_iff_longestPrefix hmem list']
  · intro h
    apply List.foldl_ext
    intro best candidate hmem
    simp only [better, h candidate hmem]

end LongestPrefix
