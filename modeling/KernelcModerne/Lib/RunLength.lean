import Mathlib.Data.List.Basic

/-! Lists as runs of equal elements. -/

namespace RunLength

variable {α : Type*} {list : List α} {runs : List (Nat × α)} {i count : Nat} {a : α}

/-- The list that runs stand for. -/
def expand (runs : List (Nat × α)) : List α := runs.flatMap fun run => List.replicate run.1 run.2

@[simp] theorem expand_nil : expand ([] : List (Nat × α)) = [] := rfl

@[simp] theorem expand_cons (run : Nat × α) (runs : List (Nat × α)) :
    expand (run :: runs) = List.replicate run.1 run.2 ++ expand runs := rfl

@[simp] theorem expand_append (first second : List (Nat × α)) :
    expand (first ++ second) = expand first ++ expand second := List.flatMap_append

/-- From `i` on the list has `count` times the element `a`. -/
def IsRun (list : List α) (i count : Nat) (a : α) : Prop :=
  list.take (i + count) = list.take i ++ List.replicate count a

theorem isRun_one (h : list[i]? = some a) : IsRun list i 1 a := by
  rw [IsRun, List.take_add_one, h]
  rfl

theorem IsRun.succ (h : IsRun list i count a) (hnext : list[i + count]? = some a) :
    IsRun list i (count + 1) a := by
  unfold IsRun at *
  rw [← Nat.add_assoc, List.take_add_one, hnext, h, List.append_assoc]
  exact congrArg _ List.replicate_succ'.symm

/-- The runs stand for the list up to `i`. -/
def Covers (list : List α) (runs : List (Nat × α)) (i : Nat) : Prop := expand runs = list.take i

theorem covers_nil (list : List α) : Covers list [] 0 := List.take_zero.symm

theorem Covers.concat (h : Covers list runs i) (hrun : IsRun list i count a) :
    Covers list (runs ++ [(count, a)]) (i + count) := by
  unfold Covers IsRun at *
  rw [hrun, expand_append, h]
  simp

theorem Covers.expand_eq (h : Covers list runs i) (hend : list.length ≤ i) : expand runs = list :=
  h.trans (List.take_of_length_le hend)

end RunLength
