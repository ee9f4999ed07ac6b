import Mathlib.Data.List.Chain

/-! Lists whose elements of one kind are copied to the front, over what stands
there. -/

namespace Squeezing

variable {α : Type*} {p : α → Bool} {l : List α}

/-- The elements that satisfy `p` at the front, the other places as they were. -/
def squeeze (p : α → Bool) (l : List α) : List α := l.filter p ++ l.drop (l.filter p).length

/-- The elements that satisfy `p` come first. -/
def Front (p : α → Bool) (l : List α) : Prop := l.Pairwise fun a b => p b = true → p a = true

/-- Of two neighbours, one satisfies `p`. -/
def Spread (p : α → Bool) (l : List α) : Prop := l.IsChain fun a b => p a = true ∨ p b = true

theorem Front.eq_append (h : Front p l) : l = l.filter p ++ l.filter fun a => !p a := by
  induction l with
  | nil => rfl
  | cons a l ih =>
    obtain ⟨hhead, htail⟩ := List.pairwise_cons.mp h
    cases ha : p a with
    | true =>
      rw [List.filter_cons_of_pos ha, List.filter_cons_of_neg (by simp [ha]), List.cons_append]
      exact congrArg _ (ih htail)
    | false =>
      -- nothing behind the first that fails satisfies `p`
      have hnone : ∀ b ∈ l, p b = false := fun b hb =>
        Bool.eq_false_iff.mpr fun hpb => by simp [hhead b hb hpb] at ha
      rw [List.filter_cons_of_neg (by simp [ha]), List.filter_eq_nil_iff.mpr (by simpa using hnone),
        List.nil_append, List.filter_eq_self.mpr]
      exact List.forall_mem_cons.mpr ⟨by simp [ha], by simpa using hnone⟩

theorem squeeze_of_front (h : Front p l) : squeeze p l = l := by
  have hdrop := congrArg (List.drop (l.filter p).length) h.eq_append
  rw [List.drop_left] at hdrop
  rw [squeeze, hdrop]
  exact h.eq_append.symm

theorem filter_squeeze (p : α → Bool) (l : List α) :
    (squeeze p l).filter p = l.filter p ++ (l.drop (l.filter p).length).filter p := by
  rw [squeeze, List.filter_append, List.filter_filter]
  simp

/-- No element is doubled exactly when they were at the front before. -/
theorem length_filter_squeeze_iff :
    ((squeeze p l).filter p).length = (l.filter p).length ↔ Front p l := by
  constructor
  · intro h
    rw [filter_squeeze, List.length_append, Nat.add_eq_left, List.length_eq_zero_iff,
      List.filter_eq_nil_iff] at h
    have hsplit := List.take_append_drop (l.filter p).length l
    have hle : (l.filter p).length ≤ l.length := List.length_filter_le p l
    -- all that satisfy `p` stand in the places that the copies take
    have hfront : ((l.take (l.filter p).length).filter p).length = (l.take (l.filter p).length).length := by
      have hcount := congrArg (fun l => (l.filter p).length) hsplit
      simp only [List.filter_append, List.filter_eq_nil_iff.mpr h, List.append_nil] at hcount
      rw [hcount, List.length_take_of_le hle]
    have hall := List.length_filter_eq_length_iff.mp hfront
    rw [Front, ← hsplit, List.pairwise_append]
    refine ⟨List.pairwise_of_forall_mem_list fun a ha b _ _ => hall a ha, ?_, fun a ha b _ _ => hall a ha⟩
    exact List.pairwise_of_forall_mem_list fun a _ b hb hpb => absurd hpb (h b hb)
  · intro h
    rw [squeeze_of_front h]

theorem Spread.of_sublist {part : List α} (h : Spread p part) (hsub : part.Sublist l)
    (hcount : (l.filter fun a => !p a).length = (part.filter fun a => !p a).length) : Spread p l := by
  induction hsub with
  | slnil => exact h
  | @cons part l a hsub ih =>
    have hle := (hsub.filter fun a => !p a).length_le
    cases ha : p a with
    | true =>
      rw [List.filter_cons_of_neg (by simp [ha])] at hcount
      exact List.isChain_cons.mpr ⟨fun _ _ => .inl ha, ih h hcount⟩
    | false =>
      rw [List.filter_cons_of_pos (by simp [ha]), List.length_cons] at hcount
      omega
  | @cons_cons part l a hsub ih =>
    obtain ⟨hhead, htail⟩ := List.isChain_cons.mp h
    have hrest : (l.filter fun a => !p a).length = (part.filter fun a => !p a).length := by
      cases ha : p a with
      | true => simpa [List.filter_cons_of_neg, ha] using hcount
      | false => simpa [List.filter_cons_of_pos, ha] using hcount
    refine List.isChain_cons.mpr ⟨fun b hb => ?_, ih htail hrest⟩
    cases hpb : p b with
    | true => exact .inr rfl
    | false =>
      -- `b` is in the part, and so it comes next to `a` there too
      cases hsub with
      | slnil => simp at hb
      | @cons part l c hsub =>
        obtain rfl : c = b := by simpa using hb
        have hle := (hsub.filter fun a => !p a).length_le
        rw [List.filter_cons_of_pos (by simp [hpb]), List.length_cons] at hrest
        omega
      | cons_cons c hsub =>
        obtain rfl : c = b := by simpa using hb
        exact hpb ▸ hhead c rfl

end Squeezing
