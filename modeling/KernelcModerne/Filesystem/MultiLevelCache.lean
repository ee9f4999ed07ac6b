import Mathlib.Data.List.AList

namespace Kernel.FileSystem

/-- The bytes of a file, or of a part of one. -/
abbrev Data := List UInt8

structure CacheEntry where
  data : Data
  timestamp : Nat
  dirty : Bool

structure CacheLevel where
  size : Nat
  data : AList fun _ : String => CacheEntry
  hit_count : Nat
  miss_count : Nat

/-- Moving the entry of `key` from level `i` to the level above; level 0 has
none. -/
def moveUp (key : String) : Nat → List CacheLevel → List CacheLevel
  | 1, upper :: lower :: rest =>
    match lower.data.lookup key with
    | some entry =>
      { upper with data := upper.data.insert key entry } ::
        { lower with data := lower.data.erase key } :: rest
    | none => upper :: lower :: rest
  | i + 2, level :: rest => level :: moveUp key (i + 1) rest
  | _, levels => levels

/-- `promoteToHigherLevel`, which the repository calls and does not define. It
moves the entry one level up, or decides not to. -/
structure Promotion where
  promoteToHigherLevel : List CacheLevel → String → Data → Nat → List CacheLevel
  moves : ∀ levels key data i, promoteToHigherLevel levels key data i = levels ∨
    promoteToHigherLevel levels key data i = moveUp key i levels

/-- The promotion that leaves every entry where it is. -/
def Promotion.stay : Promotion where
  promoteToHigherLevel levels _ _ _ := levels
  moves _ _ _ _ := .inl rfl

structure MultiLevelCache where
  levels : List CacheLevel

namespace MultiLevelCache

def addLevel (self : MultiLevelCache) (size : Nat) : MultiLevelCache where
  levels := self.levels ++ [{ size, data := ∅, hit_count := 0, miss_count := 0 }]

/-- The cache as constructed: L1 1 MiB, L2 8 MiB, L3 32 MiB. -/
def constructed : MultiLevelCache :=
  let levels : MultiLevelCache := { levels := [] }
  ((levels.addLevel (1 * 1024 * 1024)).addLevel (8 * 1024 * 1024)).addLevel (32 * 1024 * 1024)

/-- The loop of `get` up to the level that has the key, which is counted from
the first level on. -/
def probe (key : String) (now : Nat) : List CacheLevel → List CacheLevel × Option (Nat × Data)
  | [] => ([], none)
  | level :: rest =>
    match level.data.lookup key with
    | some entry =>
      ({ level with
          data := level.data.insert key { entry with timestamp := now }
          hit_count := level.hit_count + 1 } :: rest, some (0, entry.data))
    | none =>
      let (rest, found) := probe key now rest
      ({ level with miss_count := level.miss_count + 1 } :: rest,
        found.map fun (i, data) => (i + 1, data))

def get (self : MultiLevelCache) (promotion : Promotion) (key : String) (now : Nat) :
    MultiLevelCache × Option Data :=
  match probe key now self.levels with
  | (levels, some (i, data)) =>
    ({ levels := promotion.promoteToHigherLevel levels key data i }, some data)
  | (levels, none) => ({ levels }, none)

/-- The loop of `put`: the first level that has the key takes the entry. -/
def putFirst (key : String) (entry : CacheEntry) : List CacheLevel → Option (List CacheLevel)
  | [] => none
  | level :: rest =>
    match level.data.lookup key with
    | some _ => some ({ level with data := level.data.insert key entry } :: rest)
    | none => (putFirst key entry rest).map (level :: ·)

def put (self : MultiLevelCache) (key : String) (data : Data) (dirty : Bool) (now : Nat) :
    MultiLevelCache :=
  let entry : CacheEntry := ⟨data, now, dirty⟩
  match putFirst key entry self.levels with
  | some levels => { levels }
  | none =>
    { levels := self.levels.modifyHead fun level =>
        { level with data := level.data.insert key entry } }

/-- `getAllEntries`, yielding each entry with its key. -/
def getAllEntries (self : MultiLevelCache) : List (String × CacheEntry) :=
  self.levels.flatMap fun level => level.data.entries.map fun entry => (entry.1, entry.2)

end MultiLevelCache

/-- What the first level that has the key holds for it. -/
def contents (levels : List CacheLevel) (key : String) : Option Data :=
  levels.findSome? fun level => (level.data.lookup key).map CacheEntry.data

@[simp] theorem contents_nil (key : String) : contents [] key = none := rfl

theorem contents_cons (level : CacheLevel) (rest : List CacheLevel) (key : String) :
    contents (level :: rest) key =
      ((level.data.lookup key).map CacheEntry.data).or (contents rest key) := by
  rw [contents, List.findSome?_cons]
  cases (level.data.lookup key).map CacheEntry.data with
  | none => rw [Option.none_or]; rfl
  | some data => rw [Option.some_or]

/-- None of the first `i` levels has the key. -/
def Absent (key : String) (i : Nat) (levels : List CacheLevel) : Prop :=
  ∀ level ∈ levels.take i, level.data.lookup key = none

theorem absent_zero (key : String) (levels : List CacheLevel) : Absent key 0 levels := by
  intro level hlevel
  simp at hlevel

theorem absent_succ_cons {key : String} {i : Nat} {level : CacheLevel} {rest : List CacheLevel} :
    Absent key (i + 1) (level :: rest) ↔ level.data.lookup key = none ∧ Absent key i rest := by
  simp [Absent]

/-- Two levels that hold the same data for every key are the same to the
contents. -/
theorem contents_congr_head {level level' : CacheLevel} (rest : List CacheLevel) {key : String}
    (h : (level.data.lookup key).map CacheEntry.data = (level'.data.lookup key).map CacheEntry.data) :
    contents (level :: rest) key = contents (level' :: rest) key := by
  rw [contents_cons, contents_cons, h]

/-- Moving an entry up past levels that do not have its key changes nothing. -/
theorem contents_moveUp {key : String} {i : Nat} {levels : List CacheLevel}
    (habsent : Absent key i levels) (other : String) :
    contents (moveUp key i levels) other = contents levels other := by
  induction i generalizing levels with
  | zero =>
    cases levels <;> rfl
  | succ i ih =>
    cases levels with
    | nil => cases i <;> rfl
    | cons upper rest =>
      obtain ⟨hupper, hrest⟩ := absent_succ_cons.mp habsent
      cases i with
      | succ i =>
        rw [moveUp, contents_cons, contents_cons, ih hrest]
      | zero =>
        cases rest with
        | nil => rfl
        | cons lower rest =>
          rw [moveUp]
          cases hlookup : lower.data.lookup key with
          | none => rfl
          | some entry =>
            simp only [contents_cons]
            by_cases hother : other = key
            · subst hother
              simp [hupper, hlookup]
            · simp [AList.lookup_insert_ne hother, AList.lookup_erase_ne hother]

theorem length_moveUp (key : String) (i : Nat) (levels : List CacheLevel) :
    (moveUp key i levels).length = levels.length := by
  induction i generalizing levels with
  | zero => cases levels <;> rfl
  | succ i ih =>
    cases levels with
    | nil => cases i <;> rfl
    | cons upper rest =>
      cases i with
      | succ i =>
        rw [moveUp, List.length_cons, List.length_cons, ih]
      | zero =>
        cases rest with
        | nil => rfl
        | cons lower rest =>
          rw [moveUp]
          cases lower.data.lookup key <;> rfl

namespace MultiLevelCache

/-- The bytes that `get` delivers for each key. -/
def delivered (self : MultiLevelCache) : String → Option Data := contents self.levels

/-- The cache starts empty. -/
theorem delivered_constructed (key : String) : constructed.delivered key = none := by
  simp [delivered, constructed, addLevel, contents_cons]

/-- The loop of `get` changes no data, and finds the first level that has the
key. -/
theorem probe_spec (key : String) (now : Nat) (levels : List CacheLevel) :
    (∀ other, contents (probe key now levels).1 other = contents levels other) ∧
      (probe key now levels).2.map Prod.snd = contents levels key ∧
      ∀ i data, (probe key now levels).2 = some (i, data) → Absent key i (probe key now levels).1 := by
  induction levels with
  | nil => exact ⟨fun _ => rfl, rfl, nofun⟩
  | cons level rest ih =>
    obtain ⟨hcontents, hfound, habsent⟩ := ih
    rw [probe]
    cases hlookup : level.data.lookup key with
    | some entry =>
      refine ⟨fun other => ?_, ?_, ?_⟩
      · apply contents_congr_head
        by_cases hother : other = key
        · subst hother
          simp [hlookup]
        · simp [AList.lookup_insert_ne hother]
      · simp [contents_cons, hlookup]
      · intro i data heq
        obtain ⟨rfl, _⟩ := Prod.mk.inj (Option.some.inj heq)
        exact absent_zero _ _
    | none =>
      refine ⟨fun other => ?_, ?_, ?_⟩
      · simp only [contents_cons]
        rw [hcontents]
      · simp only [Option.map_map, contents_cons, hlookup, Option.map_none, Option.none_or]
        exact hfound
      · intro i data heq
        obtain ⟨⟨j, found⟩, hj, hij⟩ := Option.map_eq_some_iff.mp heq
        obtain ⟨rfl, rfl⟩ := Prod.mk.inj hij
        exact absent_succ_cons.mpr ⟨hlookup, habsent j found hj⟩

/-- `get` answers the delivered bytes and leaves them as they are. -/
theorem get_spec (self : MultiLevelCache) (promotion : Promotion) (key : String) (now : Nat) :
    (self.get promotion key now).2 = self.delivered key ∧
      (self.get promotion key now).1.delivered = self.delivered := by
  obtain ⟨hcontents, hfound, habsent⟩ := probe_spec key now self.levels
  unfold get
  cases hprobe : probe key now self.levels with
  | mk levels found =>
    rw [hprobe] at hcontents hfound habsent
    cases found with
    | none => exact ⟨hfound, funext hcontents⟩
    | some hit =>
      obtain ⟨i, data⟩ := hit
      refine ⟨hfound, funext fun other => ?_⟩
      have hmoved : contents (promotion.promoteToHigherLevel levels key data i) other =
          contents levels other := by
        cases promotion.moves levels key data i with
        | inl hsame => rw [hsame]
        | inr hmove => rw [hmove, contents_moveUp (habsent i data rfl)]
      exact hmoved.trans (hcontents other)

theorem length_probe (key : String) (now : Nat) (levels : List CacheLevel) :
    (probe key now levels).1.length = levels.length := by
  induction levels with
  | nil => rfl
  | cons level rest ih =>
    rw [probe]
    cases level.data.lookup key with
    | some entry => rfl
    | none => exact congrArg (· + 1) ih

/-- `get` and `put` keep the number of levels. -/
theorem length_get (self : MultiLevelCache) (promotion : Promotion) (key : String) (now : Nat) :
    (self.get promotion key now).1.levels.length = self.levels.length := by
  have hprobe := length_probe key now self.levels
  unfold get
  cases hresult : probe key now self.levels with
  | mk levels found =>
    rw [hresult] at hprobe
    cases found with
    | none => exact hprobe
    | some hit =>
      obtain ⟨i, data⟩ := hit
      refine Eq.trans ?_ hprobe
      cases promotion.moves levels key data i with
      | inl hsame => exact congrArg List.length hsame
      | inr hmove => exact (congrArg List.length hmove).trans (length_moveUp key i levels)

theorem putFirst_spec (key : String) (entry : CacheEntry) (levels : List CacheLevel) :
    (putFirst key entry levels = none ∧ contents levels key = none) ∨
      ∃ after, putFirst key entry levels = some after ∧ after.length = levels.length ∧
        contents after = Function.update (contents levels) key (some entry.data) := by
  induction levels with
  | nil => exact .inl ⟨rfl, rfl⟩
  | cons level rest ih =>
    rw [putFirst]
    cases hlookup : level.data.lookup key with
    | some old =>
      refine .inr ⟨_, rfl, rfl, funext fun other => ?_⟩
      rw [contents_cons]
      by_cases hother : other = key
      · subst hother
        simp
      · simp [hother, AList.lookup_insert_ne hother, contents_cons]
    | none =>
      cases ih with
      | inl hnone =>
        refine .inl ⟨?_, ?_⟩
        · simp only [hnone.1, Option.map_none]
        · simp [contents_cons, hlookup, hnone.2]
      | inr hsome =>
        obtain ⟨after, hafter, hlength, hcontents⟩ := hsome
        refine .inr ⟨level :: after, ?_, congrArg (· + 1) hlength, funext fun other => ?_⟩
        · simp only [hafter, Option.map_some]
        · rw [contents_cons, hcontents]
          by_cases hother : other = key
          · subst hother
            simp [hlookup]
          · simp [hother, contents_cons]

/-- `put` changes the delivered bytes of its key alone. -/
theorem put_spec {self : MultiLevelCache} (hlevels : self.levels ≠ []) (key : String) (data : Data)
    (dirty : Bool) (now : Nat) :
    (self.put key data dirty now).delivered = Function.update self.delivered key (some data) := by
  unfold put
  cases putFirst_spec key ⟨data, now, dirty⟩ self.levels with
  | inr hsome =>
    obtain ⟨after, hafter, _, hcontents⟩ := hsome
    simp only [hafter]
    exact hcontents
  | inl hnone =>
    simp only [hnone.1]
    obtain ⟨level, rest, hcons⟩ := List.exists_cons_of_ne_nil hlevels
    funext other
    simp only [delivered, hcons, List.modifyHead_cons, contents_cons]
    by_cases hother : other = key
    · subst hother
      simp
    · simp [hother, AList.lookup_insert_ne hother, contents_cons]

theorem length_put (self : MultiLevelCache) (key : String) (data : Data) (dirty : Bool) (now : Nat) :
    (self.put key data dirty now).levels.length = self.levels.length := by
  unfold put
  cases putFirst_spec key ⟨data, now, dirty⟩ self.levels with
  | inr hsome =>
    obtain ⟨after, hafter, hlength, _⟩ := hsome
    simp only [hafter]
    exact hlength
  | inl hnone =>
    simp only [hnone.1]
    exact List.length_modifyHead

end MultiLevelCache

end Kernel.FileSystem
