import Mathlib.Algebra.Group.Nat.Even
import KernelcModerne.Memory.ShaderCompiler

namespace Kernel.Memory.ShaderCompiler

def HasMain (source : String) : Prop := "void main".toList <:+: source.toList

/-- As many opening as closing braces. -/
def Balanced (source : String) : Prop := source.toList.count '\x7b' = source.toList.count '\x7d'

/-- The closing braces behind the last opening one, all of them where there is
none. -/
def closingsAtEnd (source : List Char) : Nat := (source.reverse.takeWhile (· ≠ '\x7b')).count '\x7d'

/-- An odd number of closing braces behind the last opening one, or an even
number of them and no opening one. -/
def ClosesLast (source : List Char) : Prop := closingsAtEnd source % 2 = 1 ↔ '\x7b' ∈ source

instance (source : List Char) : Decidable (ClosesLast source) := inferInstanceAs (Decidable (_ ↔ _))

theorem countBrace_opening (hasValidBraces : Bool) : countBrace hasValidBraces '\x7b' = true := by
  cases hasValidBraces <;> rfl

theorem countBrace_closing (hasValidBraces : Bool) : countBrace hasValidBraces '\x7d' = !hasValidBraces := by
  cases hasValidBraces <;> rfl

theorem countBrace_other {c : Char} (hopening : c ≠ '\x7b') (hclosing : c ≠ '\x7d') (hasValidBraces : Bool) :
    countBrace hasValidBraces c = hasValidBraces := by
  simp [countBrace, hopening, hclosing]

theorem closingsAtEnd_concat (source : List Char) (c : Char) :
    closingsAtEnd (source ++ [c]) =
      if c = '\x7b' then 0 else closingsAtEnd source + if c = '\x7d' then 1 else 0 := by
  unfold closingsAtEnd
  rw [List.reverse_append, List.reverse_singleton, List.singleton_append, List.takeWhile_cons]
  by_cases hopening : c = '\x7b'
  · simp [hopening]
  · simp [hopening, List.count_cons]

/-- The counter is set by an opening brace and turned over by a closing one. -/
theorem foldl_countBrace (source : List Char) :
    source.foldl countBrace false = false ↔ ClosesLast source := by
  unfold ClosesLast
  induction source using List.reverseRecOn with
  | nil => decide
  | append_singleton source c ih =>
    rw [List.foldl_append, List.foldl_cons, List.foldl_nil, closingsAtEnd_concat, List.mem_append,
      List.mem_singleton]
    by_cases hopening : c = '\x7b'
    · rw [hopening, countBrace_opening]
      simp
    · rw [if_neg hopening, or_iff_left (Ne.symm hopening)]
      by_cases hclosing : c = '\x7d'
      · rw [hclosing, countBrace_closing, if_pos rfl]
        have hflip : (!source.foldl countBrace false) = false ↔ ¬ source.foldl countBrace false = false := by
          simp
        rw [hflip, ih, Nat.succ_mod_two_eq_one_iff, ← Nat.mod_two_ne_one]
        exact not_iff
      · rw [if_neg hclosing, countBrace_other hopening hclosing]
        exact ih

theorem checkShaderSyntax_iff (source : String) :
    checkShaderSyntax source = true ↔ HasMain source ∧ ClosesLast source.toList := by
  unfold checkShaderSyntax HasMain
  rw [Bool.and_eq_true, decide_eq_true_eq, beq_iff_eq, foldl_countBrace]

/-- A source is accepted for its `void main` and its balanced braces exactly
when, if it has a `void main`, its braces are balanced where the last of them
leave the counter at zero. -/
theorem checkShaderSyntax_counts_iff (source : String) :
    (checkShaderSyntax source = true ↔ HasMain source ∧ Balanced source) ↔
      (HasMain source → (Balanced source ↔ ClosesLast source.toList)) := by
  rw [checkShaderSyntax_iff]
  tauto

/-- A block in the body of `main`. -/
theorem nested_braces_rejected :
    ¬ (checkShaderSyntax "void main() \x7b\x7b\x7d\x7d" = true ↔
      HasMain "void main() \x7b\x7b\x7d\x7d" ∧ Balanced "void main() \x7b\x7b\x7d\x7d") := by
  unfold HasMain Balanced
  decide

end Kernel.Memory.ShaderCompiler
