import Mathlib.Data.List.Sort
import KernelcModerne.Lib.AListTotal
import KernelcModerne.Lib.Word64
import KernelcModerne.Filesystem.MultiLevelCache

namespace Kernel.FileSystem

/-- The order in which `std::sort` leaves entries that it compares by timestamp.
It is open for entries with the same one. -/
structure EvictionOrder where
  sort : List (String × Nat) → List (String × Nat)
  perm : ∀ entries, (sort entries).Perm entries
  sorted : ∀ entries, (sort entries).Pairwise fun a b => a.2 ≤ b.2

/-- The order that keeps entries with the same timestamp as they are. -/
def EvictionOrder.stable : EvictionOrder where
  sort entries := entries.insertionSort fun a b => a.2 ≤ b.2
  perm := List.perm_insertionSort _
  sorted := List.pairwise_insertionSort _

namespace CacheLevel

/-- The bytes that the level holds. -/
def usedSize (self : CacheLevel) : Nat := self.data.total fun _ entry => entry.data.length

/-- `level.data[key].data.size()`. -/
def sizeOf (data : AList fun _ : String => CacheEntry) (key : String) : Nat :=
  ((data.lookup key).map fun entry => entry.data.length).getD 0

/-- The eviction loop of a level that held `usedSize` bytes before it. -/
def evictOldest (usedSize totalSize : Nat) : List (String × Nat) → Nat →
    (AList fun _ : String => CacheEntry) → AList fun _ : String => CacheEntry
  | [], _, data => data
  | entry :: rest, removedSize, data =>
    if 10 * (usedSize - removedSize) < 7 * totalSize then data
    else evictOldest usedSize totalSize rest (removedSize + sizeOf data entry.1) (data.erase entry.1)

/-- The keys of the level with their timestamps, oldest first. -/
def oldestFirst (self : CacheLevel) (order : EvictionOrder) : List (String × Nat) :=
  order.sort (self.data.entries.map fun entry => (entry.1, entry.2.timestamp))

/-- More than 90% of the level is used. -/
def TooFull (self : CacheLevel) : Prop := 10 * self.usedSize > 9 * self.size

instance (self : CacheLevel) : Decidable self.TooFull := inferInstanceAs (Decidable (_ > _))

def evict (self : CacheLevel) (order : EvictionOrder) : CacheLevel :=
  if self.TooFull then
    { self with data := evictOldest self.usedSize self.size (self.oldestFirst order) 0 self.data }
  else self

/-- The end of `optimizeCache` for a level. -/
def resetCounters (self : CacheLevel) : CacheLevel := { self with hit_count := 0, miss_count := 0 }

end CacheLevel

namespace MultiLevelCache

/-- The number of ticks of `steady_clock` in a second. -/
def TICKS_PER_SECOND : Nat := 1000000000

/-- `accessPatterns[key].accessCount`: the number of levels that have the key. -/
def accessCount (levels : List CacheLevel) (key : String) : Nat :=
  levels.countP fun level => key ∈ level.data

/-- `accessPatterns[key].lastAccess`: the timestamp in the last such level. -/
def lastAccess (levels : List CacheLevel) (key : String) : Nat :=
  ((levels.reverse.findSome? fun level => level.data.lookup key).map CacheEntry.timestamp).getD 0

/-- The tests before an entry of a level is moved to the level `above`. -/
def MovesUp (levels : List CacheLevel) (now : Nat) (above : CacheLevel) (key : String)
    (entry : CacheEntry) : Prop :=
  accessCount levels key > 100 ∧ (now - lastAccess levels key) / TICKS_PER_SECOND < 60 ∧
    above.usedSize + entry.data.length ≤ above.size

instance (levels : List CacheLevel) (now : Nat) (above : CacheLevel) (key : String)
    (entry : CacheEntry) : Decidable (MovesUp levels now above key entry) :=
  inferInstanceAs (Decidable (_ ∧ _ ∧ _))

/-- The loop over the levels, of which `above` is the one before. Moving an
entry erases it from the map that is iterated over, which is undefined. -/
def optimizeLevels (order : EvictionOrder) (levels : List CacheLevel) (now : Nat) :
    Option CacheLevel → List CacheLevel → Option (List CacheLevel)
  | _, [] => some []
  | above, level :: rest =>
    let evicted := level.evict order
    if ∃ upper ∈ above, ∃ entry ∈ evicted.data.entries, MovesUp levels now upper entry.1 entry.2 then none
    else (optimizeLevels order levels now (some level) rest).map (evicted.resetCounters :: ·)

def optimizeCache (self : MultiLevelCache) (order : EvictionOrder) (now : Nat) :
    Option MultiLevelCache :=
  (optimizeLevels order self.levels now none self.levels).map MultiLevelCache.mk

/-- `expandLevel`, undefined for a level that does not exist. -/
def expandLevel (self : MultiLevelCache) (level size : Nat) : Option MultiLevelCache :=
  if level < self.levels.length then
    some { levels := self.levels.modify level fun level =>
      { level with size := Word64.add level.size size } }
  else none

end MultiLevelCache

namespace CacheLevel

variable {data : AList fun _ : String => CacheEntry}

theorem sizeOf_erase_of_ne {key other : String} (hne : other ≠ key) :
    sizeOf (data.erase key) other = sizeOf data other := by
  rw [sizeOf, AList.lookup_erase_ne hne, sizeOf]

/-- The bytes of the entries of `keys`. -/
def sizesOf (data : AList fun _ : String => CacheEntry) (entries : List (String × Nat)) : Nat :=
  (entries.map fun entry => sizeOf data entry.1).sum

@[simp] theorem sizesOf_nil : sizesOf data [] = 0 := rfl

@[simp] theorem sizesOf_cons (entry : String × Nat) (rest : List (String × Nat)) :
    sizesOf data (entry :: rest) = sizeOf data entry.1 + sizesOf data rest := rfl

theorem sizesOf_erase {key : String} {entries : List (String × Nat)}
    (hkey : key ∉ entries.map Prod.fst) : sizesOf (data.erase key) entries = sizesOf data entries := by
  unfold sizesOf
  congr 1
  refine List.map_congr_left fun entry hentry => sizeOf_erase_of_ne ?_
  rintro rfl
  exact hkey (List.mem_map_of_mem hentry)

/-- The loop leaves keys that it is not given alone. -/
theorem evictOldest_lookup_of_notMem {usedSize totalSize : Nat} {key : String}
    (entries : List (String × Nat)) (hkey : key ∉ entries.map Prod.fst) (removedSize : Nat)
    (data : AList fun _ : String => CacheEntry) :
    (evictOldest usedSize totalSize entries removedSize data).lookup key = data.lookup key := by
  induction entries generalizing removedSize data with
  | nil => rfl
  | cons entry rest ih =>
    rw [List.map_cons, List.mem_cons, not_or] at hkey
    rw [evictOldest]
    split
    · rfl
    · rw [ih hkey.2, AList.lookup_erase_ne hkey.1]

/-- The loop evicts a key exactly when the entries before it leave the level at
70% or more. -/
theorem evictOldest_lookup {usedSize totalSize : Nat} {key : String} {timestamp : Nat}
    (first rest : List (String × Nat))
    (hnodup : ((first ++ (key, timestamp) :: rest).map Prod.fst).Nodup) (removedSize : Nat)
    (data : AList fun _ : String => CacheEntry) :
    (evictOldest usedSize totalSize (first ++ (key, timestamp) :: rest) removedSize data).lookup key =
      if 10 * (usedSize - (removedSize + sizesOf data first)) < 7 * totalSize then data.lookup key
      else none := by
  induction first generalizing removedSize data with
  | nil =>
    rw [List.nil_append, List.map_cons, List.nodup_cons] at hnodup
    rw [List.nil_append, evictOldest, sizesOf_nil, Nat.add_zero]
    split
    · rfl
    · rw [evictOldest_lookup_of_notMem rest hnodup.1, AList.lookup_erase]
  | cons entry first ih =>
    rw [List.cons_append, List.map_cons, List.nodup_cons] at hnodup
    obtain ⟨hentry, hnodup⟩ := hnodup
    have hne : key ≠ entry.1 := by
      rintro rfl
      exact hentry (by simp)
    have hfirst : entry.1 ∉ first.map Prod.fst := by
      intro hmem
      exact hentry (by simp [hmem])
    rw [List.cons_append, evictOldest, sizesOf_cons]
    by_cases hstop : 10 * (usedSize - removedSize) < 7 * totalSize
    · -- once the level is small enough it stays so
      rw [if_pos hstop, if_pos (by omega)]
    · rw [if_neg hstop, ih hnodup, sizesOf_erase hfirst, AList.lookup_erase_ne hne, Nat.add_assoc]

variable (self : CacheLevel) (order : EvictionOrder)

theorem oldestFirst_keys_perm :
    ((self.oldestFirst order).map Prod.fst).Perm self.data.keys := by
  have hperm := (order.perm (self.data.entries.map fun entry => (entry.1, entry.2.timestamp))).map Prod.fst
  rw [List.map_map] at hperm
  exact hperm

theorem nodup_oldestFirst : ((self.oldestFirst order).map Prod.fst).Nodup :=
  (self.oldestFirst_keys_perm order).nodup_iff.mpr self.data.keys_nodup

theorem mem_oldestFirst {key : String} : key ∈ (self.oldestFirst order).map Prod.fst ↔ key ∈ self.data :=
  (self.oldestFirst_keys_perm order).mem_iff

/-- All the entries together hold the bytes of the level. -/
theorem sizesOf_oldestFirst : sizesOf self.data (self.oldestFirst order) = self.usedSize := by
  have hperm := (order.perm (self.data.entries.map fun entry => (entry.1, entry.2.timestamp))).map
    fun entry => sizeOf self.data entry.1
  rw [sizesOf, oldestFirst, hperm.sum_eq, List.map_map, usedSize, AList.total]
  congr 1
  refine List.map_congr_left fun entry hentry => ?_
  have hlookup : self.data.lookup entry.1 = some entry.2 := AList.mem_lookup_iff.mpr hentry
  simp only [Function.comp_apply, sizeOf, hlookup, Option.map_some, Option.getD_some]

/-- What the loop has removed never exceeds what the level held, so that its
unsigned subtraction does not wrap. -/
theorem sizesOf_le_usedSize {first rest : List (String × Nat)}
    (h : self.oldestFirst order = first ++ rest) : sizesOf self.data first ≤ self.usedSize := by
  rw [← self.sizesOf_oldestFirst order, h]
  simp [sizesOf]

/-- The entry of `key` stays, or the entries before it leave the level at 70% or
more and it goes. -/
theorem evict_lookup {key : String} {timestamp : Nat} {first rest : List (String × Nat)}
    (h : self.oldestFirst order = first ++ (key, timestamp) :: rest) (hfull : self.TooFull) :
    (self.evict order).data.lookup key =
      if 10 * (self.usedSize - sizesOf self.data first) < 7 * self.size then self.data.lookup key
      else none := by
  have hnodup := self.nodup_oldestFirst order
  rw [h] at hnodup
  rw [evict, if_pos hfull]
  simp only [h]
  rw [evictOldest_lookup first rest hnodup, Nat.zero_add]

theorem evict_lookup_eq_or (key : String) :
    (self.evict order).data.lookup key = self.data.lookup key ∨
      (self.evict order).data.lookup key = none := by
  by_cases hfull : self.TooFull
  · by_cases hkey : key ∈ (self.oldestFirst order).map Prod.fst
    · obtain ⟨⟨_, timestamp⟩, hmem, rfl⟩ := List.mem_map.mp hkey
      obtain ⟨first, rest, hsplit⟩ := List.append_of_mem hmem
      rw [self.evict_lookup order hsplit hfull]
      split
      · exact .inl rfl
      · exact .inr rfl
    · refine .inl ?_
      rw [evict, if_pos hfull]
      exact evictOldest_lookup_of_notMem _ hkey _ _
  · rw [evict, if_neg hfull]
    exact .inl rfl

theorem mem_oldestFirst_of_lookup {key : String} {entry : CacheEntry} (h : self.data.lookup key = some entry) :
    (key, entry.timestamp) ∈ self.oldestFirst order := by
  apply (order.perm _).mem_iff.mpr
  exact List.mem_map_of_mem (AList.mem_lookup_iff.mp h)

/-- What goes was accessed no later than what stays. -/
theorem evict_oldest {key other : String} {entry kept : CacheEntry}
    (hentry : self.data.lookup key = some entry) (hgone : (self.evict order).data.lookup key = none)
    (hkept : (self.evict order).data.lookup other = some kept) : entry.timestamp ≤ kept.timestamp := by
  have hfull : self.TooFull := by
    by_contra hroom
    rw [evict, if_neg hroom, hentry] at hgone
    cases hgone
  have hother : self.data.lookup other = some kept := by
    cases self.evict_lookup_eq_or order other with
    | inl hsame => exact hsame.symm.trans hkept
    | inr hnone =>
      rw [hnone] at hkept
      cases hkept
  obtain ⟨first, rest, hsplit⟩ := List.append_of_mem (self.mem_oldestFirst_of_lookup order hentry)
  have hlate : ¬ 10 * (self.usedSize - sizesOf self.data first) < 7 * self.size := by
    intro hearly
    rw [self.evict_lookup order hsplit hfull, if_pos hearly, hentry] at hgone
    cases hgone
  have hmem := self.mem_oldestFirst_of_lookup order hother
  rw [hsplit, List.mem_append, List.mem_cons] at hmem
  cases hmem with
  | inl hfirst =>
    -- an entry before one that goes is gone already
    obtain ⟨front, back, rfl⟩ := List.append_of_mem hfirst
    rw [List.append_assoc, List.cons_append] at hsplit
    have hle : sizesOf self.data front ≤ sizesOf self.data (front ++ (other, kept.timestamp) :: back) := by
      simp [sizesOf]
    rw [self.evict_lookup order hsplit hfull, if_neg (by omega)] at hkept
    cases hkept
  | inr hlater =>
    cases hlater with
    | inl heq => exact (congrArg Prod.snd heq).ge
    | inr hrest =>
      have hsorted := order.sorted (self.data.entries.map fun entry => (entry.1, entry.2.timestamp))
      change (self.oldestFirst order).Pairwise _ at hsorted
      rw [hsplit, List.pairwise_append, List.pairwise_cons] at hsorted
      exact hsorted.2.1.1 _ hrest

end CacheLevel

namespace MultiLevelCache

/-- A level after `optimizeCache`. -/
def optimizedLevel (order : EvictionOrder) (level : CacheLevel) : CacheLevel :=
  (level.evict order).resetCounters

theorem optimizeLevels_eq_map {order : EvictionOrder} {levels : List CacheLevel} {now : Nat}
    (rest : List CacheLevel) {above : Option CacheLevel} {after : List CacheLevel}
    (h : optimizeLevels order levels now above rest = some after) :
    after = rest.map (optimizedLevel order) := by
  induction rest generalizing above after with
  | nil => exact (Option.some.inj h).symm
  | cons level rest ih =>
    simp only [optimizeLevels] at h
    split at h
    · cases h
    · obtain ⟨tail, htail, rfl⟩ := Option.map_eq_some_iff.mp h
      rw [ih htail]
      rfl

/-- An optimization that is defined evicts from each level on its own. -/
theorem optimizeCache_levels {self after : MultiLevelCache} {order : EvictionOrder} {now : Nat}
    (h : self.optimizeCache order now = some after) :
    after.levels = self.levels.map (optimizedLevel order) := by
  obtain ⟨levels, hlevels, rfl⟩ := Option.map_eq_some_iff.mp h
  exact optimizeLevels_eq_map self.levels hlevels

theorem optimizeLevels_isSome {order : EvictionOrder} {levels : List CacheLevel} {now : Nat}
    (hlength : levels.length ≤ 100) (above : Option CacheLevel) (rest : List CacheLevel) :
    (optimizeLevels order levels now above rest).isSome = true := by
  induction rest generalizing above with
  | nil => rfl
  | cons level rest ih =>
    have hstay : ¬ ∃ upper ∈ above, ∃ entry ∈ (level.evict order).data.entries,
        MovesUp levels now upper entry.1 entry.2 := by
      rintro ⟨upper, _, entry, _, hcount, _⟩
      have hle : accessCount levels entry.1 ≤ levels.length := List.countP_le_length
      omega
    simp only [optimizeLevels, if_neg hstay, Option.isSome_map]
    exact ih _

/-- With the levels of the constructor an optimization is always defined: no
entry is ever in a hundred levels. -/
theorem optimizeCache_isSome {self : MultiLevelCache} (hlength : self.levels.length ≤ 100)
    (order : EvictionOrder) (now : Nat) : (self.optimizeCache order now).isSome = true := by
  rw [optimizeCache, Option.isSome_map]
  exact optimizeLevels_isSome hlength _ _

/-- No key is in two levels. -/
def UniqueKeys (levels : List CacheLevel) : Prop := ∀ key, accessCount levels key ≤ 1

@[simp] theorem accessCount_nil (key : String) : accessCount [] key = 0 := rfl

theorem accessCount_cons (level : CacheLevel) (rest : List CacheLevel) (key : String) :
    accessCount (level :: rest) key =
      accessCount rest key + if (level.data.lookup key).isSome then 1 else 0 := by
  rw [accessCount, List.countP_cons, accessCount]
  simp only [AList.lookup_isSome, decide_eq_true_eq]

theorem contents_eq_none_of_accessCount {levels : List CacheLevel} {key : String}
    (h : accessCount levels key = 0) : contents levels key = none := by
  induction levels with
  | nil => rfl
  | cons level rest ih =>
    rw [accessCount_cons] at h
    rw [contents_cons, ih (by omega), Option.or_none]
    cases hlookup : level.data.lookup key with
    | none => rfl
    | some entry => simp [hlookup] at h

/-- Levels that lose entries have no more of any key. -/
theorem accessCount_map_le {f : CacheLevel → CacheLevel} {key : String}
    (hf : ∀ level, ((f level).data.lookup key).isSome → (level.data.lookup key).isSome)
    (levels : List CacheLevel) : accessCount (levels.map f) key ≤ accessCount levels key := by
  induction levels with
  | nil => exact Nat.le_refl 0
  | cons level rest ih =>
    rw [List.map_cons, accessCount_cons, accessCount_cons]
    refine Nat.add_le_add ih ?_
    by_cases hafter : ((f level).data.lookup key).isSome
    · rw [if_pos hafter, if_pos (hf level hafter)]
    · rw [if_neg hafter]
      exact Nat.zero_le _

/-- Where no key is in two levels, an entry that goes does not uncover another. -/
theorem contents_map_eq_or {f : CacheLevel → CacheLevel} {key : String}
    (hf : ∀ level, (f level).data.lookup key = level.data.lookup key ∨ (f level).data.lookup key = none)
    (levels : List CacheLevel) (hunique : accessCount levels key ≤ 1) :
    contents (levels.map f) key = contents levels key ∨ contents (levels.map f) key = none := by
  have hsome (level : CacheLevel) (h : ((f level).data.lookup key).isSome) :
      (level.data.lookup key).isSome := by
    cases hf level with
    | inl hsame => rwa [hsame] at h
    | inr hnone => rw [hnone] at h; cases h
  induction levels with
  | nil => exact .inl rfl
  | cons level rest ih =>
    rw [accessCount_cons] at hunique
    rw [List.map_cons, contents_cons, contents_cons]
    cases hlookup : level.data.lookup key with
    | none =>
      have hafter : (f level).data.lookup key = none := by
        cases hf level with
        | inl hsame => exact hsame.trans hlookup
        | inr hnone => exact hnone
      rw [hafter, Option.map_none, Option.none_or, Option.none_or]
      exact ih (by omega)
    | some entry =>
      rw [hlookup, Option.isSome_some, if_pos rfl] at hunique
      have hrest : accessCount rest key = 0 := by omega
      have hempty := contents_eq_none_of_accessCount
        (Nat.le_zero.mp (hrest ▸ accessCount_map_le hsome rest))
      rw [hempty, Option.or_none, contents_eq_none_of_accessCount hrest, Option.or_none]
      cases hf level with
      | inl hsame => exact .inl (by rw [hsame, hlookup])
      | inr hnone => exact .inr (by rw [hnone, Option.map_none])

theorem contents_eq_none_iff {levels : List CacheLevel} {key : String} :
    contents levels key = none ↔ accessCount levels key = 0 := by
  refine ⟨fun h => ?_, contents_eq_none_of_accessCount⟩
  induction levels with
  | nil => rfl
  | cons level rest ih =>
    rw [contents_cons, Option.or_eq_none_iff, Option.map_eq_none_iff] at h
    rw [accessCount_cons, ih h.2, h.1]
    rfl

/-- Two levels that both have the key are the same. -/
theorem eq_of_accessCount_le {levels : List CacheLevel} {key : String}
    (hunique : accessCount levels key ≤ 1) {level other : CacheLevel} (hlevel : level ∈ levels)
    (hother : other ∈ levels) (hkey : key ∈ level.data) (hkey' : key ∈ other.data) : level = other := by
  have hpos {l : CacheLevel} {rest : List CacheLevel} (hl : l ∈ rest) (h : key ∈ l.data) :
      0 < accessCount rest key :=
    List.countP_pos_iff.mpr ⟨l, hl, decide_eq_true h⟩
  induction levels with
  | nil => cases hlevel
  | cons head rest ih =>
    have hsplit := accessCount_cons head rest key
    cases List.mem_cons.mp hlevel with
    | inl heq =>
      cases List.mem_cons.mp hother with
      | inl heq' => rw [heq, heq']
      | inr hrest =>
        subst heq
        have hcount := hpos hrest hkey'
        rw [if_pos (AList.lookup_isSome.mpr hkey)] at hsplit
        omega
    | inr hrest =>
      cases List.mem_cons.mp hother with
      | inl heq' =>
        subst heq'
        have hcount := hpos hrest hkey
        rw [if_pos (AList.lookup_isSome.mpr hkey')] at hsplit
        omega
      | inr hrest' => exact ih (by omega) hrest hrest'

/-- Replacing the entry of a key that a level has changes no count. -/
theorem accessCount_insert {level : CacheLevel} {rest : List CacheLevel} {key : String}
    (hkey : (level.data.lookup key).isSome) (entry : CacheEntry) (hits : Nat) (other : String) :
    accessCount ({ level with data := level.data.insert key entry, hit_count := hits } :: rest) other =
      accessCount (level :: rest) other := by
  rw [accessCount_cons, accessCount_cons]
  by_cases hother : other = key
  · subst hother
    simp only [AList.lookup_insert, Option.isSome_some, hkey]
  · simp only [AList.lookup_insert_ne hother]

theorem accessCount_probe (key : String) (now : Nat) (levels : List CacheLevel) (other : String) :
    accessCount (probe key now levels).1 other = accessCount levels other := by
  induction levels with
  | nil => rfl
  | cons level rest ih =>
    rw [probe]
    cases hlookup : level.data.lookup key with
    | some entry => exact accessCount_insert (by rw [hlookup]; rfl) _ _ other
    | none =>
      simp only [accessCount_cons]
      rw [ih]

theorem accessCount_moveUp_le (key : String) (i : Nat) (levels : List CacheLevel) (other : String) :
    accessCount (moveUp key i levels) other ≤ accessCount levels other := by
  induction i generalizing levels with
  | zero => cases levels <;> exact Nat.le_refl _
  | succ i ih =>
    cases levels with
    | nil => cases i <;> exact Nat.le_refl _
    | cons upper rest =>
      cases i with
      | succ i =>
        rw [moveUp, accessCount_cons, accessCount_cons]
        exact Nat.add_le_add_right (ih rest) _
      | zero =>
        cases rest with
        | nil => exact Nat.le_refl _
        | cons lower rest =>
          rw [moveUp]
          cases hlookup : lower.data.lookup key with
          | none => exact Nat.le_refl _
          | some entry =>
            simp only [accessCount_cons]
            by_cases hother : other = key
            · -- the level above gets the key that the one below loses
              subst hother
              simp only [AList.lookup_insert, AList.lookup_erase, hlookup, Option.isSome_some,
                Option.isSome_none, if_true, Bool.false_eq_true, if_false]
              split <;> omega
            · simp only [AList.lookup_insert_ne hother, AList.lookup_erase_ne hother]
              exact Nat.le_refl _

theorem UniqueKeys.of_le {levels after : List CacheLevel} (h : UniqueKeys levels)
    (hle : ∀ key, accessCount after key ≤ accessCount levels key) : UniqueKeys after :=
  fun key => (hle key).trans (h key)

theorem UniqueKeys.get {self : MultiLevelCache} (h : UniqueKeys self.levels) (promotion : Promotion)
    (key : String) (now : Nat) : UniqueKeys (self.get promotion key now).1.levels := by
  refine h.of_le fun other => ?_
  have hprobe := accessCount_probe key now self.levels other
  unfold MultiLevelCache.get
  cases hresult : probe key now self.levels with
  | mk levels found =>
    rw [hresult] at hprobe
    cases found with
    | none => exact hprobe.le
    | some hit =>
      obtain ⟨i, data⟩ := hit
      refine le_trans ?_ hprobe.le
      cases promotion.moves levels key data i with
      | inl hsame => exact (congrArg (accessCount · other) hsame).le
      | inr hmove =>
        exact (congrArg (accessCount · other) hmove).le.trans (accessCount_moveUp_le key i levels other)

theorem accessCount_putFirst {key : String} {entry : CacheEntry} {levels after : List CacheLevel}
    (h : putFirst key entry levels = some after) (other : String) :
    accessCount after other = accessCount levels other := by
  induction levels generalizing after with
  | nil => cases h
  | cons level rest ih =>
    rw [putFirst] at h
    cases hlookup : level.data.lookup key with
    | some old =>
      rw [hlookup] at h
      obtain rfl := Option.some.inj h
      exact accessCount_insert (by rw [hlookup]; rfl) entry level.hit_count other
    | none =>
      rw [hlookup] at h
      obtain ⟨tail, htail, rfl⟩ := Option.map_eq_some_iff.mp h
      rw [accessCount_cons, accessCount_cons, ih htail]

theorem UniqueKeys.put {self : MultiLevelCache} (h : UniqueKeys self.levels) (key : String)
    (data : Data) (dirty : Bool) (now : Nat) : UniqueKeys (self.put key data dirty now).levels := by
  intro other
  unfold MultiLevelCache.put
  cases hput : putFirst key ⟨data, now, dirty⟩ self.levels with
  | some after =>
    simp only [hput]
    exact (accessCount_putFirst hput other).le.trans (h other)
  | none =>
    have habsent : accessCount self.levels key = 0 := by
      cases putFirst_spec key ⟨data, now, dirty⟩ self.levels with
      | inl hnone => exact contents_eq_none_iff.mp hnone.2
      | inr hsome =>
        obtain ⟨after, hafter, _⟩ := hsome
        rw [hput] at hafter
        cases hafter
    have hother := h other
    simp only [hput]
    cases hlevels : self.levels with
    | nil => exact Nat.zero_le 1
    | cons level rest =>
      rw [hlevels] at habsent hother
      rw [accessCount_cons] at habsent hother
      simp only [List.modifyHead_cons, accessCount_cons]
      by_cases heq : other = key
      · subst heq
        simp only [AList.lookup_insert, Option.isSome_some, if_true]
        omega
      · rw [AList.lookup_insert_ne heq]
        exact hother

private theorem map_data_modify {f : CacheLevel → CacheLevel} (hf : ∀ level, (f level).data = level.data)
    (levels : List CacheLevel) (i : Nat) :
    (levels.modify i f).map CacheLevel.data = levels.map CacheLevel.data := by
  induction levels generalizing i with
  | nil => simp
  | cons level rest ih =>
    cases i with
    | zero => simp [hf]
    | succ i => simp [ih]

/-- Expanding a level changes no data. -/
theorem expandLevel_data {self after : MultiLevelCache} {level size : Nat}
    (h : self.expandLevel level size = some after) :
    after.levels.map CacheLevel.data = self.levels.map CacheLevel.data := by
  simp only [expandLevel] at h
  split at h
  · obtain rfl := Option.some.inj h
    apply map_data_modify
    exact fun _ => rfl
  · cases h

theorem contents_congr {levels after : List CacheLevel}
    (h : after.map CacheLevel.data = levels.map CacheLevel.data) : contents after = contents levels := by
  have hdata (levels : List CacheLevel) (key : String) : contents levels key =
      (levels.map CacheLevel.data).findSome? fun data => (data.lookup key).map CacheEntry.data := by
    rw [contents, List.findSome?_map]
    rfl
  funext key
  rw [hdata, hdata, h]

theorem accessCount_congr {levels after : List CacheLevel}
    (h : after.map CacheLevel.data = levels.map CacheLevel.data) (key : String) :
    accessCount after key = accessCount levels key := by
  have hdata (levels : List CacheLevel) : accessCount levels key =
      (levels.map CacheLevel.data).countP fun data => key ∈ data := by
    rw [accessCount, List.countP_map]
    rfl
  rw [hdata, hdata, h]

theorem UniqueKeys.optimizeCache {self after : MultiLevelCache} (h : UniqueKeys self.levels)
    {order : EvictionOrder} {now : Nat} (hafter : self.optimizeCache order now = some after) :
    UniqueKeys after.levels := by
  rw [optimizeCache_levels hafter]
  refine h.of_le fun key => accessCount_map_le (fun level hsome => ?_) self.levels
  cases level.evict_lookup_eq_or order key with
  | inl hsame => exact hsame ▸ hsome
  | inr hnone =>
    have hsome' : ((level.evict order).data.lookup key).isSome := hsome
    rw [hnone] at hsome'
    cases hsome'

end MultiLevelCache

end Kernel.FileSystem
