import Mathlib.Data.List.Basic

/-! Logs that keep their last `n` entries. -/

namespace RecentLog

variable {α : Type*} {n : Nat}

/-- The last `n` entries of a history. -/
def recent (n : Nat) (history : List α) : List α := history.drop (history.length - n)

/-- An entry is added, and the first one goes if there are too many. -/
def pushTrim (n : Nat) (log : List α) (entry : α) : List α :=
  if (log ++ [entry]).length > n then (log ++ [entry]).tail else log ++ [entry]

/-- The first entry goes if there is no room, and one is added. -/
def trimPush (n : Nat) (log : List α) (entry : α) : List α :=
  (if log.length ≥ n then log.tail else log) ++ [entry]

@[simp] theorem recent_nil (n : Nat) : recent n ([] : List α) = [] := List.drop_nil

theorem length_recent (n : Nat) (history : List α) : (recent n history).length = min n history.length := by
  rw [recent, List.length_drop]
  omega

theorem recent_of_le {history : List α} (h : history.length ≤ n) : recent n history = history := by
  rw [recent, Nat.sub_eq_zero_of_le h, List.drop_zero]

/-- The last entries after one more, where there was room. -/
theorem recent_concat_of_lt {history : List α} (entry : α) (h : history.length < n) :
    recent n (history ++ [entry]) = recent n history ++ [entry] := by
  rw [recent_of_le (Nat.le_of_lt h), recent_of_le (by simpa using Nat.succ_le_of_lt h)]

/-- Where there was none, the first one is not among them any more. -/
theorem recent_concat_of_le {history : List α} (entry : α) (h : n ≤ history.length) :
    recent n (history ++ [entry]) = (recent n history ++ [entry]).tail := by
  have hlength : (history ++ [entry]).length - n = history.length - n + 1 := by
    simp only [List.length_append, List.length_singleton]
    omega
  have happend : recent n history ++ [entry] = (history ++ [entry]).drop (history.length - n) :=
    (List.drop_append_of_le_length (Nat.sub_le _ _)).symm
  rw [recent, hlength, happend, List.tail_drop]

theorem pushTrim_recent (history : List α) (entry : α) :
    pushTrim n (recent n history) entry = recent n (history ++ [entry]) := by
  have hlength := length_recent n history
  by_cases h : n ≤ history.length
  · rw [pushTrim, if_pos (by simp only [List.length_append, List.length_singleton]; omega),
      recent_concat_of_le entry h]
  · rw [pushTrim, if_neg (by simp only [List.length_append, List.length_singleton]; omega),
      recent_concat_of_lt entry (by omega)]

theorem trimPush_recent (hn : 0 < n) (history : List α) (entry : α) :
    trimPush n (recent n history) entry = recent n (history ++ [entry]) := by
  have hlength := length_recent n history
  by_cases h : n ≤ history.length
  · have hne : recent n history ≠ [] := List.ne_nil_of_length_pos (by omega)
    rw [trimPush, if_pos (by omega), recent_concat_of_le entry h, List.tail_append_of_ne_nil hne]
  · rw [trimPush, if_neg (by omega), recent_concat_of_lt entry (by omega)]

/-- From the newest on. -/
theorem take_reverse_recent (count : Nat) (history : List α) :
    (recent n history).reverse.take count = history.reverse.take (min count n) := by
  rw [recent, List.reverse_drop, List.take_take, List.take_eq_take_iff, List.length_reverse]
  omega

end RecentLog
