import Mathlib.Algebra.BigOperators.Group.List.Basic
import Mathlib.Algebra.GroupWithZero.Nat
import Mathlib.Algebra.Order.BigOperators.Group.List
import Mathlib.Algebra.Order.Group.Nat
import Mathlib.Data.List.AList

/-! The keys of a finite map, and sums of a weight over its entries. -/

namespace AList

variable {κ ν : Type*}

/-- The sum of `w` over the entries of the map. -/
def total (w : κ → ν → Nat) (m : AList fun _ : κ => ν) : Nat :=
  (m.entries.map fun e => w e.1 e.2).sum

variable [DecidableEq κ]

theorem mem_of_lookup {m : AList fun _ : κ => ν} {k : κ} {v : ν} (h : m.lookup k = some v) :
    k ∈ m := by
  rw [← lookup_isSome, h]
  rfl

theorem exists_lookup_of_mem {m : AList fun _ : κ => ν} {k : κ} (h : k ∈ m) :
    ∃ v, m.lookup k = some v := Option.isSome_iff_exists.mp (lookup_isSome.mpr h)

/-- The entry of a key and the entries of the other keys make up the map. -/
theorem entries_perm_of_lookup {m : AList fun _ : κ => ν} {k : κ} {v : ν} (h : m.lookup k = some v) :
    m.entries.Perm (⟨k, v⟩ :: (m.erase k).entries) := by
  have hentry : (⟨k, v⟩ : Sigma fun _ : κ => ν) ∈ m.entries := mem_lookup_iff.mp h
  obtain ⟨b, before, after, hbefore, hsplit, herase⟩ :=
    List.exists_of_kerase (List.mem_keys_of_mem hentry)
  have hlookup := h
  rw [lookup, hsplit, List.dlookup_append, List.dlookup_eq_none.mpr hbefore, Option.none_or,
    List.dlookup_cons_eq] at hlookup
  obtain rfl : b = v := Option.some.inj hlookup
  have hrest : (m.erase k).entries = before ++ after := herase
  rw [hsplit, hrest]
  exact List.perm_middle

theorem length_erase_of_lookup {m : AList fun _ : κ => ν} {k : κ} {v : ν} (h : m.lookup k = some v) :
    (m.erase k).entries.length + 1 = m.entries.length := (entries_perm_of_lookup h).length_eq.symm

theorem length_insert_le (m : AList fun _ : κ => ν) (k : κ) (v : ν) :
    (m.insert k v).entries.length ≤ m.entries.length + 1 := by
  rw [entries_insert, List.length_cons]
  exact Nat.succ_le_succ (List.kerase_sublist k m.entries).length_le

theorem length_insert_of_lookup {m : AList fun _ : κ => ν} {k : κ} {old : ν} (h : m.lookup k = some old)
    (v : ν) : (m.insert k v).entries.length = m.entries.length := by
  rw [← length_erase_of_lookup h]
  rfl

/-- The entry of a key and the entries of the other keys make up the sum. -/
theorem total_erase_of_lookup (w : κ → ν → Nat) {m : AList fun _ : κ => ν} {k : κ} {v : ν}
    (h : m.lookup k = some v) : total w m = w k v + total w (m.erase k) := by
  have hperm := (entries_perm_of_lookup h).map fun e => w e.1 e.2
  exact hperm.sum_eq

theorem total_erase_of_lookup_none (w : κ → ν → Nat) {m : AList fun _ : κ => ν} {k : κ}
    (h : m.lookup k = none) : total w (m.erase k) = total w m := by
  rw [lookup_eq_none, mem_keys] at h
  have herase : (m.erase k).entries = m.entries := List.kerase_of_notMem_keys h
  rw [total, total, herase]

theorem total_erase_le (w : κ → ν → Nat) (m : AList fun _ : κ => ν) (k : κ) :
    total w (m.erase k) ≤ total w m := by
  cases h : m.lookup k with
  | none => exact (total_erase_of_lookup_none w h).le
  | some v =>
    rw [total_erase_of_lookup w h]
    omega

@[simp] theorem total_insert (w : κ → ν → Nat) (m : AList fun _ : κ => ν) (k : κ) (v : ν) :
    total w (m.insert k v) = w k v + total w (m.erase k) := rfl

theorem total_insert_of_lookup_none (w : κ → ν → Nat) {m : AList fun _ : κ => ν} {k : κ}
    (h : m.lookup k = none) (v : ν) : total w (m.insert k v) = total w m + w k v := by
  rw [total_insert, total_erase_of_lookup_none w h, Nat.add_comm]

/-- The value that is replaced leaves the sum. -/
theorem total_insert_of_lookup (w : κ → ν → Nat) {m : AList fun _ : κ => ν} {k : κ} {old : ν}
    (h : m.lookup k = some old) (v : ν) : total w (m.insert k v) + w k old = total w m + w k v := by
  rw [total_insert, total_erase_of_lookup w h]
  omega

/-- A smaller weight has a smaller sum. -/
theorem total_le_total {w w' : κ → ν → Nat} {m : AList fun _ : κ => ν}
    (h : ∀ k v, m.lookup k = some v → w k v ≤ w' k v) : total w m ≤ total w' m := by
  apply List.sum_le_sum
  rintro ⟨k, v⟩ he
  exact h k v (mem_lookup_iff.mpr he)

/-- A weight that vanishes on the map has sum zero. -/
theorem total_eq_zero {w : κ → ν → Nat} {m : AList fun _ : κ => ν}
    (h : ∀ k v, m.lookup k = some v → w k v = 0) : total w m = 0 := by
  apply List.sum_eq_zero
  rintro x hx
  obtain ⟨⟨k, v⟩, he, rfl⟩ := List.mem_map.mp hx
  exact h k v (mem_lookup_iff.mpr he)

end AList
