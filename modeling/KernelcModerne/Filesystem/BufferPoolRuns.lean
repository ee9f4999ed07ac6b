import KernelcModerne.Filesystem.VirtualFileSystem
import KernelcModerne.Lib.Transition

open Transition

namespace Kernel.FileSystem

namespace BufferPool

def inUse (self : BufferPool) : Nat := self.pool.countP Buffer.in_use

private theorem countP_modify {α : Type*} (p : α → Bool) (f : α → α) {l : List α} {i : Nat} {a : α}
    (h : l[i]? = some a) :
    (l.modify i f).countP p + (if p a then 1 else 0) = l.countP p + if p (f a) then 1 else 0 := by
  induction l generalizing i with
  | nil => simp at h
  | cons b l ih =>
    cases i with
    | zero =>
      obtain rfl : b = a := by simpa using h
      rw [List.modify_zero_cons, List.countP_cons, List.countP_cons]
      omega
    | succ i =>
      have hrest := ih (by simpa using h)
      rw [List.modify_succ_cons, List.countP_cons, List.countP_cons]
      omega

/-- A free buffer that is acquired is one more in use. -/
theorem acquire_spec {self after : BufferPool} {i : Nat} (h : self.acquire = some (after, i)) :
    self.pool[i]? = some ⟨false⟩ ∧ after.inUse = self.inUse + 1 ∧
      after.pool[i]? = some ⟨true⟩ ∧ ∀ j, j ≠ i → after.pool[j]? = self.pool[j]? := by
  obtain ⟨j, hfound, heq⟩ := Option.map_eq_some_iff.mp h
  obtain ⟨rfl, rfl⟩ := Prod.mk.inj heq
  obtain ⟨hlt, hfree, _⟩ := List.findIdx?_eq_some_iff_getElem.mp hfound
  have hi : self.pool[j]? = some ⟨false⟩ := by
    rw [List.getElem?_eq_getElem hlt]
    cases hbuffer : self.pool[j] with
    | mk in_use => simpa [hbuffer] using hfree
  have hcount := countP_modify Buffer.in_use (fun buffer => { buffer with in_use := true }) hi
  refine ⟨hi, by simpa [inUse] using hcount, by simp [hi], fun k hk => ?_⟩
  exact List.getElem?_modify_ne _ _ (Ne.symm hk)

/-- A buffer in use that is released is one less in use. -/
theorem inUse_release {self : BufferPool} {i : Nat} (h : self.pool[i]? = some ⟨true⟩) :
    (self.release i).inUse + 1 = self.inUse := by
  have hcount := countP_modify Buffer.in_use (fun buffer => { buffer with in_use := false }) h
  simpa [inUse, release] using hcount

theorem length_expand (self : BufferPool) (size : Nat) :
    (self.expand size).pool.length = Word64.add self.pool.length size := by
  simp only [expand, List.length_append, List.length_take, List.length_replicate]
  omega

/-- The buffers that `expand` drops, when the size wraps. -/
def dropped (self : BufferPool) (size : Nat) : List Buffer :=
  self.pool.drop (Word64.add self.pool.length size)

/-- `expand` adds free buffers. -/
theorem inUse_expand (self : BufferPool) (size : Nat) :
    (self.expand size).inUse + (self.dropped size).countP Buffer.in_use = self.inUse := by
  have hsplit := List.take_append_drop (Word64.add self.pool.length size) self.pool
  rw [inUse, inUse, dropped, expand, List.countP_append, List.countP_replicate]
  conv_rhs => rw [← hsplit, List.countP_append]
  simp

/-- A buffer that `expand` does not drop stays in its place. -/
theorem getElem?_expand {self : BufferPool} {size i : Nat} {buffer : Buffer}
    (hi : self.pool[i]? = some buffer) (hkept : i < Word64.add self.pool.length size) :
    (self.expand size).pool[i]? = some buffer := by
  have hlt : i < self.pool.length := (List.getElem?_eq_some_iff.mp hi).1
  rw [expand, List.getElem?_append_left (by rw [List.length_take]; omega), List.getElem?_take_of_lt hkept]
  exact hi

end BufferPool

/-- A `Buffer*`: the storage of the vector that it points into, and the place
there. -/
structure BufferPointer where
  generation : Nat
  index : Nat
  deriving DecidableEq

/-- The pool in the storage of its vector, which has room for `spare` more
buffers. -/
structure StoredPool where
  bufferPool : BufferPool
  generation : Nat
  spare : Nat

namespace StoredPool

def constructed (spare : Nat) : StoredPool where
  bufferPool := .constructed
  generation := 0
  spare := spare

def capacity (self : StoredPool) : Nat := self.bufferPool.pool.length + self.spare

def acquire (self : StoredPool) : Option (StoredPool × BufferPointer) :=
  self.bufferPool.acquire.map fun (bufferPool, index) =>
    ({ self with bufferPool }, ⟨self.generation, index⟩)

/-- A write through a pointer into an earlier storage does not reach the pool. -/
def release (self : StoredPool) (buffer : BufferPointer) : StoredPool :=
  if buffer.generation = self.generation then
    { self with bufferPool := self.bufferPool.release buffer.index }
  else self

/-- Beyond the capacity the buffers move to a new storage, with the spare room
that the allocation answers; `none` is an allocation that throws. -/
def expand (self : StoredPool) (size : Nat) (allocation : Option Nat) : StoredPool :=
  let bufferPool := self.bufferPool.expand size
  if bufferPool.pool.length ≤ self.capacity then
    { self with bufferPool, spare := self.capacity - bufferPool.pool.length }
  else
    match allocation with
    | none => self
    | some spare => { bufferPool, generation := self.generation + 1, spare }

end StoredPool

/-- The pool and the buffers that its callers have acquired and not released. -/
structure BufferClient where
  storage : StoredPool
  held : List BufferPointer

inductive BufferOp where
  | acquire
  | release (buffer : BufferPointer)
  | expand (size : UInt64) (allocation : Option Nat)

namespace BufferClient

def constructed (spare : Nat) : BufferClient where
  storage := .constructed spare
  held := []

/-- One call, by any thread. Only a buffer that is held is released. -/
def step (client : BufferClient) : BufferOp → Option BufferClient
  | .acquire =>
    match client.storage.acquire with
    | none => some client
    | some (storage, buffer) => some { storage, held := buffer :: client.held }
  | .release buffer =>
    if buffer ∈ client.held then
      some { storage := client.storage.release buffer, held := client.held.erase buffer }
    else none
  | .expand size allocation => some { client with storage := client.storage.expand size.toNat allocation }

/-- As many buffers are marked in use as are held. -/
def Balanced (client : BufferClient) : Prop :=
  client.storage.bufferPool.inUse = client.held.length

instance (client : BufferClient) : Decidable client.Balanced := inferInstanceAs (Decidable (_ = _))

/-- `acquire` does not answer a buffer that is held. -/
def AcquiresUnheld (client : BufferClient) : BufferOp → Prop
  | .acquire => ∀ storage buffer, client.storage.acquire = some (storage, buffer) → buffer ∉ client.held
  | _ => True

/-- A buffer is released in the storage it was acquired from, and no buffer in
use is dropped. -/
def InPlace (client : BufferClient) : BufferOp → Prop
  | .acquire => True
  | .release buffer => buffer.generation = client.storage.generation
  | .expand size _ => ∀ buffer ∈ client.storage.bufferPool.dropped size.toNat, ¬ buffer.in_use

/-- The buffers held in the current storage are in use, each by one caller. -/
structure Tracked (client : BufferClient) : Prop where
  balanced : client.Balanced
  marked : ∀ buffer ∈ client.held, buffer.generation = client.storage.generation →
    client.storage.bufferPool.pool[buffer.index]? = some ⟨true⟩
  past : ∀ buffer ∈ client.held, buffer.generation ≤ client.storage.generation
  nodup : client.held.Nodup

theorem constructed_tracked (spare : Nat) : (constructed spare).Tracked where
  balanced := by simp [Balanced, constructed, StoredPool.constructed, BufferPool.constructed,
    BufferPool.inUse, List.countP_replicate]
  marked := by simp [constructed]
  past := by simp [constructed]
  nodup := .nil

variable {client after : BufferClient}

/-- What `acquire` answers, it marks. -/
theorem acquire_cases (hstep : client.step .acquire = some after) :
    after = client ∧ client.storage.acquire = none ∨
    ∃ bufferPool index, client.storage.bufferPool.acquire = some (bufferPool, index) ∧
      client.storage.acquire = some ({ client.storage with bufferPool }, ⟨client.storage.generation, index⟩) ∧
      after =
        { storage := { client.storage with bufferPool }
          held := ⟨client.storage.generation, index⟩ :: client.held } := by
  simp only [step, StoredPool.acquire] at hstep ⊢
  cases hanswer : client.storage.bufferPool.acquire with
  | none =>
    simp only [hanswer, Option.map_none, Option.some.injEq] at hstep
    exact .inl ⟨hstep.symm, rfl⟩
  | some answer =>
    simp only [hanswer, Option.map_some, Option.some.injEq] at hstep
    exact .inr ⟨answer.1, answer.2, rfl, rfl, hstep.symm⟩

theorem Tracked.acquiresUnheld (h : client.Tracked) (op : BufferOp) : client.AcquiresUnheld op := by
  cases op with
  | release => trivial
  | expand => trivial
  | acquire =>
    intro storage buffer hacquire hheld
    obtain ⟨⟨bufferPool, index⟩, hanswer, heq⟩ := Option.map_eq_some_iff.mp hacquire
    obtain ⟨-, rfl⟩ := Prod.mk.inj heq
    -- a buffer held in this storage is marked, and `acquire` answers a free one
    have hmarked := h.marked _ hheld rfl
    rw [(BufferPool.acquire_spec hanswer).1] at hmarked
    cases hmarked

theorem Tracked.step_acquire (h : client.Tracked) (hstep : client.step .acquire = some after) :
    after.Tracked := by
  have hunheld := h.acquiresUnheld .acquire
  cases acquire_cases hstep with
  | inl hnone => exact hnone.1 ▸ h
  | inr hsome =>
    obtain ⟨bufferPool, index, hanswer, hacquire, rfl⟩ := hsome
    obtain ⟨_, hcount, hself, hothers⟩ := BufferPool.acquire_spec hanswer
    refine ⟨?_, ?_, List.forall_mem_cons.mpr ⟨le_rfl, h.past⟩, List.nodup_cons.mpr ⟨hunheld _ _ hacquire, h.nodup⟩⟩
    · rw [Balanced, hcount, h.balanced, List.length_cons]
    · refine List.forall_mem_cons.mpr ⟨fun _ => hself, fun buffer hbuffer hgeneration => ?_⟩
      by_cases hindex : buffer.index = index
      · exact hindex ▸ hself
      · exact (hothers _ hindex).trans (h.marked buffer hbuffer hgeneration)

/-- A release keeps the count exactly when it is made in place. -/
theorem Tracked.release_iff (h : client.Tracked) {buffer : BufferPointer}
    (hstep : client.step (.release buffer) = some after) :
    after.Balanced ↔ client.InPlace (.release buffer) := by
  have hbalanced : client.storage.bufferPool.inUse = client.held.length := h.balanced
  obtain ⟨hheld, hafter⟩ := Option.ite_none_right_eq_some.mp hstep
  obtain rfl := Option.some.inj hafter
  have hpos := List.length_pos_of_mem hheld
  simp only [Balanced, InPlace, StoredPool.release, List.length_erase_of_mem hheld]
  split
  · next hgeneration =>
    have hcount := BufferPool.inUse_release (h.marked buffer hheld hgeneration)
    refine iff_of_true ?_ hgeneration
    simp only
    omega
  · next hgeneration =>
    refine iff_of_false ?_ hgeneration
    omega

theorem Tracked.step_release (h : client.Tracked) {buffer : BufferPointer}
    (hstep : client.step (.release buffer) = some after) (hplace : client.InPlace (.release buffer)) :
    after.Tracked := by
  have hbalanced := (h.release_iff hstep).mpr hplace
  obtain ⟨hheld, hafter⟩ := Option.ite_none_right_eq_some.mp hstep
  obtain rfl := Option.some.inj hafter
  have hrelease : client.storage.release buffer =
      { client.storage with bufferPool := client.storage.bufferPool.release buffer.index } := if_pos hplace
  refine ⟨hbalanced, ?_, ?_, h.nodup.erase buffer⟩
  · intro other hother hgeneration
    obtain ⟨hne, hmem⟩ := h.nodup.mem_erase_iff.mp hother
    simp only [hrelease] at hgeneration ⊢
    have hindex : buffer.index ≠ other.index := by
      intro heq
      obtain ⟨generation, index⟩ := other
      obtain ⟨generation', index'⟩ := buffer
      exact hne (BufferPointer.mk.injEq .. ▸ ⟨hgeneration.trans (Eq.symm hplace), heq.symm⟩)
    exact (List.getElem?_modify_ne _ _ hindex).trans (h.marked other hmem hgeneration)
  · intro other hother
    rw [hrelease]
    exact h.past other (List.mem_of_mem_erase hother)

/-- What `expand` does: it resizes the vector in its storage, leaves it as it
was, or moves its buffers to a new storage; only the first may drop any. -/
theorem expand_cases (storage : StoredPool) (size : Nat) (allocation : Option Nat) :
    (storage.expand size allocation).bufferPool = storage.bufferPool.expand size ∧
        (storage.expand size allocation).generation = storage.generation ∨
      storage.bufferPool.dropped size = [] ∧ (storage.expand size allocation = storage ∨
        (storage.expand size allocation).bufferPool = storage.bufferPool.expand size ∧
          (storage.expand size allocation).generation = storage.generation + 1) := by
  simp only [StoredPool.expand, BufferPool.length_expand]
  split
  · exact .inl ⟨rfl, rfl⟩
  · next hbeyond =>
    have hdropped : storage.bufferPool.dropped size = [] := by
      rw [StoredPool.capacity] at hbeyond
      exact List.drop_eq_nil_of_le (by omega)
    cases allocation with
    | none => exact .inr ⟨hdropped, .inl rfl⟩
    | some spare => exact .inr ⟨hdropped, .inr ⟨rfl, rfl⟩⟩

/-- An expansion keeps the count exactly when no buffer in use is dropped. -/
theorem Tracked.expand_iff (h : client.Tracked) {size : UInt64} {allocation : Option Nat}
    (hstep : client.step (.expand size allocation) = some after) :
    after.Balanced ↔ client.InPlace (.expand size allocation) := by
  have hbalanced : client.storage.bufferPool.inUse = client.held.length := h.balanced
  obtain rfl := Option.some.inj hstep
  have hcount := client.storage.bufferPool.inUse_expand size.toNat
  have hplace : client.InPlace (.expand size allocation) ↔
      (client.storage.bufferPool.dropped size.toNat).countP Buffer.in_use = 0 := List.countP_eq_zero.symm
  rw [hplace]
  simp only [Balanced]
  cases expand_cases client.storage size.toNat allocation with
  | inl hresized =>
    rw [hresized.1]
    omega
  | inr hkept =>
    obtain ⟨hdropped, hkept⟩ := hkept
    rw [hdropped, List.countP_nil] at hcount ⊢
    refine iff_of_true ?_ rfl
    cases hkept with
    | inl hsame => rw [hsame, hbalanced]
    | inr hmoved =>
      rw [hmoved.1]
      omega

theorem Tracked.step_expand (h : client.Tracked) {size : UInt64} {allocation : Option Nat}
    (hstep : client.step (.expand size allocation) = some after)
    (hplace : client.InPlace (.expand size allocation)) : after.Tracked := by
  have hbalanced := (h.expand_iff hstep).mpr hplace
  obtain rfl := Option.some.inj hstep
  refine ⟨hbalanced, ?_, ?_, h.nodup⟩
  · intro buffer hbuffer hgeneration
    have hpast := h.past buffer hbuffer
    cases expand_cases client.storage size.toNat allocation with
    | inl hresized =>
      simp only [hresized.1, hresized.2] at hgeneration ⊢
      have hmarked := h.marked buffer hbuffer hgeneration
      refine BufferPool.getElem?_expand hmarked ?_
      by_contra hdropped
      rw [not_lt] at hdropped
      have hmem : (⟨true⟩ : Buffer) ∈ client.storage.bufferPool.dropped size.toNat := by
        apply List.mem_of_getElem? (i := buffer.index - Word64.add client.storage.bufferPool.pool.length size.toNat)
        rw [BufferPool.dropped, List.getElem?_drop, Nat.add_sub_cancel' hdropped]
        exact hmarked
      exact hplace _ hmem rfl
    | inr hkept =>
      cases hkept.2 with
      | inl hsame =>
        simp only [hsame] at hgeneration ⊢
        exact h.marked buffer hbuffer hgeneration
      | inr hmoved =>
        -- no buffer is held in a storage that is new
        simp only [hmoved.2] at hgeneration
        omega
  · intro buffer hbuffer
    have hpast := h.past buffer hbuffer
    cases expand_cases client.storage size.toNat allocation with
    | inl hresized => simpa only [hresized.2] using hpast
    | inr hkept =>
      cases hkept.2 with
      | inl hsame => simpa only [hsame] using hpast
      | inr hmoved =>
        simp only [hmoved.2]
        omega

theorem Tracked.balanced_iff (h : client.Tracked) {op : BufferOp} (hstep : client.step op = some after) :
    after.Balanced ↔ client.InPlace op := by
  cases op with
  | acquire => exact iff_of_true (h.step_acquire hstep).balanced trivial
  | release buffer => exact h.release_iff hstep
  | expand size allocation => exact h.expand_iff hstep

theorem Tracked.step (h : client.Tracked) {op : BufferOp} (hstep : client.step op = some after)
    (hplace : client.InPlace op) : after.Tracked := by
  cases op with
  | acquire => exact h.step_acquire hstep
  | release buffer => exact h.step_release hstep hplace
  | expand size allocation => exact h.step_expand hstep hplace

/-- The marks count the buffers held in every state of a run, and no call of it
acquires a buffer that is held, exactly when its calls are in place. -/
theorem buffers_counted_iff (spare : Nat) (ops : List BufferOp) :
    Always step Balanced (constructed spare) ops ∧ Guarded step AcquiresUnheld (constructed spare) ops ↔
      Guarded step InPlace (constructed spare) ops := by
  have hinit := constructed_tracked spare
  have hiff : Along step (fun _ _ after => after.Balanced) (constructed spare) ops ↔
      Guarded step InPlace (constructed spare) ops :=
    along_iff_along Tracked (fun client op after h (hstep : client.step op = some after) => h.balanced_iff hstep)
      (fun client op after h (hstep : client.step op = some after) hbalanced =>
        h.step hstep ((h.balanced_iff hstep).mp hbalanced)) ops hinit
  constructor
  · intro hall
    exact hiff.mp hall.1.2
  · intro hplace
    refine ⟨⟨hinit.balanced, hiff.mpr hplace⟩, ?_⟩
    exact along_of_guarded Tracked
      (fun _ op _ h hguard hstep => ⟨h.acquiresUnheld op, h.step hstep hguard⟩) ops hinit hplace

/-- A reader holds a buffer while the pool moves to a larger storage; what it
releases stays marked. -/
theorem expanded_under_reader :
    ¬ Always step Balanced (constructed 0) [.acquire, .expand 64 (some 0), .release ⟨0, 0⟩] := by
  rintro ⟨_, h⟩
  obtain ⟨_, h⟩ := h _ rfl
  obtain ⟨_, h⟩ := h _ rfl
  obtain ⟨hbalanced, _⟩ := h _ rfl
  exact absurd hbalanced (by decide +kernel)

end BufferClient

end Kernel.FileSystem
