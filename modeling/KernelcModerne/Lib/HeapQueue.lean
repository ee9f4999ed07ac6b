import KernelcModerne.Lib.PriorityQueue

/-! Priority queues that keep their elements in a vector as a binary heap, and
compare them by keys that may be others at each call. -/

variable {α κ : Type*} [LinearOrder κ]

/-- No element has a greater key than its parent. -/
def IsHeap (key : α → κ) (heap : List α) : Prop :=
  ∀ i child parent, heap[i + 1]? = some child → heap[i / 2]? = some parent → key child ≤ key parent

theorem IsHeap.nil (key : α → κ) : IsHeap key [] := fun _ _ _ h => by simp at h

theorem IsHeap.getElem_le_front {key : α → κ} {top : α} {rest : List α} (h : IsHeap key (top :: rest)) (i : Nat)
    (hi : i < (top :: rest).length) : key (top :: rest)[i] ≤ key top := by
  induction i using Nat.strong_induction_on with
  | _ i ih =>
    cases i with
    | zero => exact le_refl _
    | succ i =>
      have hparent : i / 2 < (top :: rest).length := by omega
      have hle := h i _ _ (List.getElem?_eq_getElem hi) (List.getElem?_eq_getElem hparent)
      exact hle.trans (ih (i / 2) (by omega) hparent)

/-- The front of a heap has the greatest key. -/
theorem IsHeap.le_front {key : α → κ} {top : α} {rest : List α} (h : IsHeap key (top :: rest)) :
    ∀ x ∈ top :: rest, key x ≤ key top := by
  intro x hx
  obtain ⟨i, hi, rfl⟩ := List.mem_iff_getElem.mp hx
  exact h.getElem_le_front i hi

/-- A heap stays one under keys that do not turn the order of two of its
elements round. -/
theorem IsHeap.of_le_imp_le {key key' : α → κ} {heap : List α} (h : IsHeap key heap)
    (hkey : ∀ a ∈ heap, ∀ b ∈ heap, key a ≤ key b → key' a ≤ key' b) : IsHeap key' heap := by
  intro i child parent hchild hparent
  exact hkey child (List.mem_of_getElem? hchild) parent (List.mem_of_getElem? hparent)
    (h i child parent hchild hparent)

/-- What is sorted, the greatest first, is a heap. -/
theorem IsHeap.of_pairwise {key : α → κ} {heap : List α}
    (h : heap.Pairwise fun a b => key b ≤ key a) : IsHeap key heap := by
  intro i child parent hchild hparent
  obtain ⟨hi, rfl⟩ := List.getElem?_eq_some_iff.mp hchild
  obtain ⟨hi', rfl⟩ := List.getElem?_eq_some_iff.mp hparent
  exact List.pairwise_iff_getElem.mp h (i / 2) (i + 1) hi' hi (by omega)

/-- `push_heap` and `pop_heap` with the vector's `push_back` and `pop_back`.
They keep a heap one; where things come in it is left open. -/
structure HeapQueue (α κ : Type*) [LinearOrder κ] where
  push : (α → κ) → List α → α → List α
  /-- What is left without the first element. -/
  pop : (α → κ) → α → List α → List α
  push_perm : ∀ key heap x, (push key heap x).Perm (x :: heap)
  pop_perm : ∀ key top rest, (pop key top rest).Perm rest
  push_isHeap : ∀ key heap x, IsHeap key heap → IsHeap key (push key heap x)
  pop_isHeap : ∀ key top rest, IsHeap key (top :: rest) → IsHeap key (pop key top rest)

namespace HeapQueue

/-- The queue while the keys are `key`; its top is the front of the vector. -/
def queue (heap : HeapQueue α κ) (key : α → κ) : PriorityQueue α where
  push := heap.push key
  pop
    | [] => none
    | top :: rest => some (top, heap.pop key top rest)
  push_perm := heap.push_perm key
  pop_nil := rfl
  pop_cons top rest := ⟨top, _, rfl, (heap.pop_perm key top rest).symm.cons top⟩

theorem isHeap_foldl_push (heap : HeapQueue α κ) (key : α → κ) (xs : List α) {queue : List α}
    (h : IsHeap key queue) : IsHeap key (xs.foldl (heap.push key) queue) := by
  induction xs generalizing queue with
  | nil => exact h
  | cons x xs ih => exact ih (heap.push_isHeap key queue x h)

/-- A queue that is built up anew is a heap. -/
theorem isHeap_ofList (heap : HeapQueue α κ) (key : α → κ) (xs : List α) :
    IsHeap key ((heap.queue key).ofList xs) :=
  heap.isHeap_foldl_push key xs (.nil key)

private def sortDown (key : α → κ) (l : List α) : List α := l.insertionSort fun a b => key b ≤ key a

private theorem sortDown_isHeap (key : α → κ) (l : List α) : IsHeap key (sortDown key l) := by
  have : Std.Total fun a b : α => key b ≤ key a := ⟨fun a b => le_total (key b) (key a)⟩
  have : IsTrans α fun a b => key b ≤ key a := ⟨fun _ _ _ hab hbc => hbc.trans hab⟩
  exact .of_pairwise (List.pairwise_insertionSort _ l)

/-- The queue that sorts its elements. -/
def sorting : HeapQueue α κ where
  push key heap x := sortDown key (x :: heap)
  pop key _ rest := sortDown key rest
  push_perm _ heap x := List.perm_insertionSort _ (x :: heap)
  pop_perm _ _ rest := List.perm_insertionSort _ rest
  push_isHeap key heap x _ := sortDown_isHeap key (x :: heap)
  pop_isHeap key _ rest _ := sortDown_isHeap key rest

end HeapQueue
