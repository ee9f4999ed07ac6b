import KernelcModerne.Lib.Splitting
import KernelcModerne.Filesystem.MountPoints

open Splitting

namespace Kernel.FileSystem

namespace Path

/-- A name that stands for itself in a path. -/
structure Proper (component : Path) : Prop where
  ne_nil : component ≠ []
  ne_dot : component ≠ ['.']
  ne_dotdot : component ≠ ['.', '.']

/-- The components behind the root, none of the root alone. Two '/' in a row
and one at the end make empty ones. -/
def components (path : Path) : List Path :=
  let relative : Path := if path.head? = some '/' then path.tail else path
  if relative = [] then [] else relative.items

/-- The components that are left when "." and ".." are done. -/
def resolved (path : Path) : List Path := path.items.foldl pushItem []

instance (component : Path) : Decidable (Proper component) :=
  decidable_of_iff (component ≠ [] ∧ component ≠ ['.'] ∧ component ≠ ['.', '.'])
    ⟨fun ⟨hnil, hdot, hdotdot⟩ => ⟨hnil, hdot, hdotdot⟩, fun h => ⟨h.ne_nil, h.ne_dot, h.ne_dotdot⟩⟩

/-- The components behind a name undo it: up to some place among them there are
more ".." than names. -/
def Undone (later : List Path) : Prop :=
  ∃ first, first <+: later ∧ first.countP (Proper ·) < first.count ['.', '.']

/-- A component that the path goes through: a name that is not undone. -/
def Stays (component : Path) (later : List Path) : Prop := Proper component ∧ ¬ Undone later

/-- Every component of the path is empty, "." or "..", or undone by later "..". -/
def CancelsOut (path : Path) : Prop :=
  ∀ before component later, path.items = before ++ component :: later → ¬ Stays component later

instance (later : List Path) : Decidable (Undone later) :=
  decidable_of_iff (∃ first ∈ later.inits, first.countP (Proper ·) < first.count ['.', '.']) <| by
    simp [Undone]

instance (component : Path) (later : List Path) : Decidable (Stays component later) :=
  inferInstanceAs (Decidable (_ ∧ _))

/-- The components that stay. -/
def staying : List Path → List Path
  | [] => []
  | component :: later => if Stays component later then component :: staying later else staying later

/-- How many names in front of them the components undo. -/
def undoes : List Path → Nat
  | [] => 0
  | component :: later =>
    if component = ['.', '.'] then undoes later + 1
    else if Proper component then undoes later - 1
    else undoes later

variable {stack names : List Path} {component : Path}

theorem pushItem_of_proper (h : Proper component) (stack : List Path) :
    pushItem stack component = stack ++ [component] := by
  unfold pushItem
  rw [if_neg (by simp [h.ne_nil, h.ne_dot]), if_neg h.ne_dotdot]

theorem pushItem_dotdot (stack : List Path) : pushItem stack ['.', '.'] = stack.dropLast := by
  unfold pushItem
  rw [if_neg (by decide), if_pos rfl]

theorem pushItem_of_skipped (hdotdot : component ≠ ['.', '.']) (h : ¬ Proper component) (stack : List Path) :
    pushItem stack component = stack := by
  unfold pushItem
  refine if_pos ?_
  by_contra hkept
  rw [not_or] at hkept
  exact h ⟨by simpa using hkept.1, hkept.2, hdotdot⟩

theorem forall_prefix_cons_iff {α : Type*} {a : α} {list : List α} {P : List α → Prop} :
    (∀ first, first <+: a :: list → P first) ↔ P [] ∧ ∀ first, first <+: list → P (a :: first) := by
  constructor
  · exact fun h => ⟨h [] List.nil_prefix, fun first hfirst => h _ ((List.prefix_cons_inj a).mpr hfirst)⟩
  · rintro ⟨hnil, hcons⟩ first hfirst
    rw [List.prefix_cons_iff] at hfirst
    obtain rfl | ⟨rest, rfl, hrest⟩ := hfirst
    · exact hnil
    · exact hcons rest hrest

/-- At most `n` names in front are undone where no part of the components has
more than `n` of ".." in excess of its names. -/
theorem undoes_le_iff (later : List Path) (n : Nat) :
    undoes later ≤ n ↔ ∀ first, first <+: later → first.count ['.', '.'] ≤ n + first.countP (Proper ·) := by
  induction later generalizing n with
  | nil => simp [undoes]
  | cons component later ih =>
    rw [forall_prefix_cons_iff, List.count_nil, and_iff_right (Nat.zero_le _), undoes]
    by_cases hdotdot : component = ['.', '.']
    · have hnot : ¬ Proper ['.', '.'] := fun h => h.ne_dotdot rfl
      rw [if_pos hdotdot]
      simp only [hdotdot, List.count_cons_self, List.countP_cons, hnot, decide_false, Bool.false_eq_true, if_false,
        Nat.add_zero]
      cases n with
      | zero =>
        refine iff_of_false (Nat.not_succ_le_zero _) fun h => ?_
        exact absurd (h [] List.nil_prefix) (by simp)
      | succ n =>
        rw [Nat.succ_le_succ_iff, ih n]
        exact forall₂_congr fun first _ => by omega
    · rw [if_neg hdotdot]
      simp only [List.count_cons_of_ne hdotdot, List.countP_cons]
      by_cases hproper : Proper component
      · rw [if_pos hproper, Nat.sub_le_iff_le_add, ih (n + 1)]
        simp only [hproper, decide_true, if_true]
        exact forall₂_congr fun first _ => by omega
      · rw [if_neg hproper, ih n]
        simp only [hproper, decide_false, Bool.false_eq_true, if_false, Nat.add_zero]

theorem undone_iff (later : List Path) : Undone later ↔ 0 < undoes later := by
  have hnone := undoes_le_iff later 0
  rw [← not_iff_not, Nat.not_lt, hnone]
  simp [Undone]

/-- The loop leaves of the stack what the components do not undo, and puts on it
those that stay. -/
theorem foldl_pushItem (names stack : List Path) :
    names.foldl pushItem stack = stack.take (stack.length - undoes names) ++ staying names := by
  induction names generalizing stack with
  | nil => simp [undoes, staying]
  | cons component later ih =>
    rw [List.foldl_cons, ih, undoes, staying]
    by_cases hdotdot : component = ['.', '.']
    · have hnot : ¬ Stays component later := fun h => h.1.ne_dotdot hdotdot
      rw [if_pos hdotdot, if_neg hnot, hdotdot, pushItem_dotdot, List.length_dropLast, List.dropLast_eq_take,
        List.take_take]
      congr 2
      omega
    · rw [if_neg hdotdot]
      by_cases hproper : Proper component
      · rw [if_pos hproper, pushItem_of_proper hproper, List.length_append, List.length_singleton]
        by_cases hundone : Undone later
        · -- the first of the names that are undone is this component
          have hpos := (undone_iff later).mp hundone
          rw [if_neg fun h => h.2 hundone, List.take_append_of_le_length (by omega)]
          congr 2
          omega
        · have hzero : undoes later = 0 := Nat.eq_zero_of_not_pos fun hpos => hundone ((undone_iff later).mpr hpos)
          have hstays : Stays component later := ⟨hproper, hundone⟩
          rw [if_pos hstays, hzero]
          simp [List.take_of_length_le]
      · rw [if_neg hproper, pushItem_of_skipped hdotdot hproper, if_neg fun h => hproper h.1]

theorem staying_sublist (names : List Path) : (staying names).Sublist names := by
  induction names with
  | nil => exact .slnil
  | cons component later ih =>
    rw [staying]
    split
    · exact ih.cons_cons component
    · exact ih.cons component

theorem staying_proper (names : List Path) : ∀ component ∈ staying names, Proper component := by
  induction names with
  | nil => exact nofun
  | cons component later ih =>
    rw [staying]
    split
    · next hstays => exact List.forall_mem_cons.mpr ⟨hstays.1, ih⟩
    · exact ih

/-- Without ".." nothing is undone. -/
theorem not_undone (h : ∀ component ∈ names, Proper component) : ¬ Undone names := by
  rintro ⟨first, hfirst, hlt⟩
  have hnone : first.count ['.', '.'] = 0 :=
    List.count_eq_zero.mpr fun hmem => (h _ (hfirst.subset hmem)).ne_dotdot rfl
  omega

theorem staying_of_proper (h : ∀ component ∈ names, Proper component) : staying names = names := by
  induction names with
  | nil => rfl
  | cons component later ih =>
    rw [List.forall_mem_cons] at h
    rw [staying, if_pos ⟨h.1, not_undone h.2⟩, ih h.2]

/-- The empty item before the root is none that stays. -/
theorem staying_root (names : List Path) : staying ([] :: names) = staying names := by
  rw [staying, if_neg fun h => h.1.ne_nil rfl]

theorem resolved_eq_staying (path : Path) : path.resolved = staying path.items := by
  rw [resolved, foldl_pushItem]
  simp

theorem staying_eq_nil_iff (names : List Path) : staying names = [] ↔
    ∀ before component later, names = before ++ component :: later → ¬ Stays component later := by
  constructor
  · rintro hnone before component later rfl hstays
    induction before with
    | nil => simp [staying, hstays] at hnone
    | cons first before ih =>
      rw [List.cons_append, staying] at hnone
      split at hnone
      · cases hnone
      · exact ih hnone
  · intro h
    induction names with
    | nil => rfl
    | cons component later ih =>
      rw [staying, if_neg (h [] component later rfl)]
      exact ih fun before next rest heq => h (component :: before) next rest (by rw [heq, List.cons_append])

theorem cancelsOut_iff (path : Path) : path.CancelsOut ↔ path.resolved = [] := by
  rw [resolved_eq_staying, staying_eq_nil_iff]
  rfl

instance (path : Path) : Decidable path.CancelsOut := decidable_of_iff _ path.cancelsOut_iff.symm

theorem resolved_proper (path : Path) : ∀ component ∈ path.resolved, Proper component :=
  path.resolved_eq_staying ▸ staying_proper path.items

theorem resolved_sublist (path : Path) : path.resolved.Sublist path.items :=
  path.resolved_eq_staying ▸ staying_sublist path.items

theorem notMem_of_mem_resolved {path : Path} (h : component ∈ path.resolved) : '/' ∉ component :=
  notMem_of_mem_splitOn (path.resolved_sublist.subset h)

theorem normalizePath_of_cancelsOut {path : Path} (h : path.CancelsOut) : path.normalizePath = ['/'] := by
  have hempty : path.items.foldl pushItem [] = [] := path.cancelsOut_iff.mp h
  unfold normalizePath
  rw [hempty]
  by_cases hroot : path.head? = some '/'
  · rw [if_pos hroot]
    rfl
  · rw [if_neg hroot]
    rfl

/-- The first name that is left, of a path that does not cancel out. -/
theorem exists_resolved_eq_cons {path : Path} (h : ¬ path.CancelsOut) :
    ∃ first rest, path.resolved = first :: rest ∧ first ≠ [] ∧ first.head? ≠ some '/' := by
  obtain ⟨first, rest, hresolved⟩ := List.exists_cons_of_ne_nil (mt path.cancelsOut_iff.mpr h)
  have hmem : first ∈ path.resolved := by
    rw [hresolved]
    exact List.mem_cons_self
  exact ⟨first, rest, hresolved, (path.resolved_proper first hmem).ne_nil,
    fun hhead => notMem_of_mem_resolved hmem (List.mem_of_head? hhead)⟩

/-- Else the names that are left follow the root, if the path starts there. -/
theorem normalizePath_of_not_cancelsOut {path : Path} (h : ¬ path.CancelsOut) : path.normalizePath =
    (if path.head? = some '/' then ['/'] else []) ++ ['/'].intercalate path.resolved := by
  obtain ⟨first, rest, hresolved, hfirst, -⟩ := exists_resolved_eq_cons h
  have hjoined : ['/'].intercalate path.resolved ≠ [] := by
    intro hempty
    have hhead : (['/'].intercalate (first :: rest)).head? = first.head? := head?_intercalate hfirst
    rw [← hresolved, hempty, List.head?_nil, eq_comm, List.head?_eq_none_iff] at hhead
    exact hfirst hhead
  unfold normalizePath
  rw [← resolved]
  exact if_neg (by simp [hjoined])

theorem head?_normalizePath (path : Path) :
    path.normalizePath.head? = some '/' ↔ path.head? = some '/' ∨ path.CancelsOut := by
  by_cases hcancels : path.CancelsOut
  · rw [normalizePath_of_cancelsOut hcancels]
    exact iff_of_true rfl (.inr hcancels)
  · obtain ⟨first, rest, hresolved, hfirst, hhead⟩ := exists_resolved_eq_cons hcancels
    rw [normalizePath_of_not_cancelsOut hcancels, or_iff_left hcancels]
    by_cases hroot : path.head? = some '/'
    · rw [if_pos hroot]
      exact iff_of_true rfl hroot
    · rw [if_neg hroot, List.nil_append, hresolved, head?_intercalate hfirst]
      exact iff_of_false hhead hroot

theorem items_intercalate_resolved {path : Path} (h : ¬ path.CancelsOut) :
    (['/'].intercalate path.resolved).splitOn '/' = path.resolved :=
  List.splitOn_intercalate '/' (fun _ => notMem_of_mem_resolved) (mt path.cancelsOut_iff.mpr h)

theorem items_cons_root (path : Path) : items ('/' :: path) = [] :: items path := by
  rw [items, List.splitOn_cons_eq_if_modifyHead]
  rfl

/-- What is left of a path are the components of the normalized path. -/
theorem components_normalizePath (path : Path) : components path.normalizePath = path.resolved := by
  by_cases hcancels : path.CancelsOut
  · rw [normalizePath_of_cancelsOut hcancels]
    exact (path.cancelsOut_iff.mp hcancels).symm
  · have hitems := items_intercalate_resolved hcancels
    have hjoined : ['/'].intercalate path.resolved ≠ [] := by
      intro hempty
      rw [hempty, List.splitOn_nil] at hitems
      exact (path.resolved_proper [] (hitems ▸ List.mem_singleton_self [])).ne_nil rfl
    have hhead := head?_normalizePath path
    rw [or_iff_left hcancels] at hhead
    rw [normalizePath_of_not_cancelsOut hcancels] at hhead ⊢
    unfold components
    by_cases hroot : path.head? = some '/'
    · rw [if_pos hroot] at hhead ⊢
      simp [hjoined, items, hitems]
    · rw [if_neg hroot, List.nil_append] at hhead ⊢
      have hrelative := mt hhead.mp hroot
      simp [hrelative, hjoined, items, hitems]

/-- The normalized path resolves to the same components. -/
theorem resolved_normalizePath (path : Path) : resolved path.normalizePath = path.resolved := by
  by_cases hcancels : path.CancelsOut
  · rw [normalizePath_of_cancelsOut hcancels]
    exact (path.cancelsOut_iff.mp hcancels).symm
  · have hitems : items (['/'].intercalate path.resolved) = path.resolved :=
      items_intercalate_resolved hcancels
    rw [normalizePath_of_not_cancelsOut hcancels]
    by_cases hroot : path.head? = some '/'
    · rw [if_pos hroot, resolved_eq_staying, List.singleton_append, items_cons_root, hitems, staying_root]
      exact staying_of_proper path.resolved_proper
    · rw [if_neg hroot, resolved_eq_staying, List.nil_append, hitems]
      exact staying_of_proper path.resolved_proper

theorem cancelsOut_normalizePath {path : Path} : CancelsOut path.normalizePath ↔ path.CancelsOut := by
  rw [cancelsOut_iff, cancelsOut_iff, resolved_normalizePath]

theorem normalizePath_idem (path : Path) : path.normalizePath.normalizePath = path.normalizePath := by
  by_cases hcancels : path.CancelsOut
  · rw [normalizePath_of_cancelsOut hcancels]
    rfl
  · have hhead := head?_normalizePath path
    rw [or_iff_left hcancels] at hhead
    rw [normalizePath_of_not_cancelsOut (mt cancelsOut_normalizePath.mp hcancels), resolved_normalizePath,
      normalizePath_of_not_cancelsOut hcancels]
    rw [normalizePath_of_not_cancelsOut hcancels] at hhead
    simp only [hhead]

theorem mem_normalizePath {path : Path} {c : Char} (h : c ∈ path.normalizePath) : c = '/' ∨ c ∈ path := by
  by_cases hcancels : path.CancelsOut
  · rw [normalizePath_of_cancelsOut hcancels] at h
    exact .inl (List.mem_singleton.mp h)
  · rw [normalizePath_of_not_cancelsOut hcancels, List.mem_append] at h
    cases h with
    | inl hroot =>
      split at hroot
      · exact .inl (List.mem_singleton.mp hroot)
      · cases hroot
    | inr hjoined =>
      obtain hslash | ⟨component, hmem, hc⟩ := mem_intercalate hjoined
      · exact .inl hslash
      · exact .inr (mem_of_mem_splitOn (path.resolved_sublist.subset hmem) hc)

theorem length_normalizePath_le (path : Path) : path.normalizePath.length ≤ max 1 path.length := by
  by_cases hcancels : path.CancelsOut
  · rw [normalizePath_of_cancelsOut hcancels]
    exact Nat.le_max_left _ _
  · rw [normalizePath_of_not_cancelsOut hcancels]
    refine le_trans ?_ (Nat.le_max_right _ _)
    by_cases hroot : path.head? = some '/'
    · -- the empty item before the root is none of the components
      obtain ⟨relative, rfl⟩ := List.head?_eq_some_iff.mp hroot
      have hsublist : (resolved ('/' :: relative)).Sublist (items relative) := by
        rw [resolved_eq_staying, items_cons_root, staying_root]
        exact staying_sublist _
      have hlength := length_intercalate_le (a := '/') hsublist
      rw [items, List.intercalate_splitOn] at hlength
      rw [if_pos hroot, List.singleton_append, List.length_cons, List.length_cons]
      exact Nat.succ_le_succ hlength
    · have hlength := length_intercalate_le (a := '/') path.resolved_sublist
      rw [items, List.intercalate_splitOn] at hlength
      rwa [if_neg hroot, List.nil_append]

end Path

namespace Mounted.VirtualFileSystem

variable {Driver : Type*}

/-- What `validatePath` asks of a path. -/
theorem validatePath_iff (self : VirtualFileSystem Driver) (checkAccess : Path → Bool) (path : Path) :
    self.validatePath checkAccess path = true ↔
      '\x00' ∉ path ∧ path.length ≤ Path.MAX_PATH_LENGTH ∧ (∀ c ∈ path, c ∉ Path.invalidChars) ∧
        (∀ component ∈ Path.items path.normalizePath, Path.componentValid component = true) ∧
        (['.', '.', '/'] <:+: path.normalizePath →
          self.isWithinPermittedBoundaries checkAccess path.normalizePath = true) := by
  unfold validatePath
  by_cases hnull : '\x00' ∈ path
  · simp [hnull]
  · by_cases hlength : Path.MAX_PATH_LENGTH < path.length
    · simp [hnull, hlength, Nat.not_le.mpr hlength]
    · by_cases hchars : path.any (Path.invalidChars.contains ·) = true
      · have hinvalid : ¬ ∀ c ∈ path, c ∉ Path.invalidChars := by
          intro hall
          obtain ⟨c, hc, hcontains⟩ := List.any_eq_true.mp hchars
          exact hall c hc (List.contains_iff_mem.mp hcontains)
        simp [hnull, hlength, hinvalid]
      · have hvalid : ∀ c ∈ path, c ∉ Path.invalidChars := by
          intro c hc hmem
          exact hchars (List.any_eq_true.mpr ⟨c, hc, List.contains_iff_mem.mpr hmem⟩)
        rw [if_neg hnull, if_neg hlength, if_neg hchars, and_iff_right hnull,
          and_iff_right (Nat.not_lt.mp hlength), and_iff_right hvalid, ← List.all_eq_true]
        by_cases hitems : (Path.items path.normalizePath).all Path.componentValid = true
        · rw [and_iff_right hitems]
          by_cases htraversal : ['.', '.', '/'] <:+: path.normalizePath
          · simp [hitems, htraversal]
          · simp [hitems, htraversal]
        · simp [hitems]

/-- Normalizing keeps a path valid. -/
theorem validatePath_normalizePath {self : VirtualFileSystem Driver} {checkAccess : Path → Bool} {path : Path}
    (h : self.validatePath checkAccess path = true) :
    self.validatePath checkAccess path.normalizePath = true := by
  rw [validatePath_iff] at h ⊢
  obtain ⟨hnull, hlength, hchars, hitems, htraversal⟩ := h
  rw [Path.normalizePath_idem]
  refine ⟨?_, ?_, ?_, hitems, htraversal⟩
  · intro hmem
    cases Path.mem_normalizePath hmem with
    | inl hslash => exact absurd hslash (by decide)
    | inr hpath => exact hnull hpath
  · have hle := path.length_normalizePath_le
    unfold Path.MAX_PATH_LENGTH at hlength ⊢
    omega
  · intro c hmem
    cases Path.mem_normalizePath hmem with
    | inl hslash => rw [hslash]; decide
    | inr hpath => exact hchars c hpath

end Mounted.VirtualFileSystem

/-- A normalized path has names for components and is absolute where it has to be; it is normalized
and as valid as the path. -/
theorem Path.normalizePath_canonicalises (path : Path) :
    (∀ component ∈ Path.components path.normalizePath,
      component ≠ [] ∧ component ≠ ['.'] ∧ component ≠ ['.', '.']) ∧
    (path.normalizePath.head? = some '/' ↔ path.head? = some '/' ∨ path.CancelsOut) ∧
    (path.CancelsOut → path.normalizePath = ['/']) ∧
    path.normalizePath.normalizePath = path.normalizePath ∧
    ∀ (Driver : Type*) (self : Mounted.VirtualFileSystem Driver) (checkAccess : Path → Bool),
      self.validatePath checkAccess path = true → self.validatePath checkAccess path.normalizePath = true := by
  refine ⟨?_, path.head?_normalizePath, normalizePath_of_cancelsOut, path.normalizePath_idem, ?_⟩
  · rw [Path.components_normalizePath]
    intro component hmem
    have hproper := path.resolved_proper component hmem
    exact ⟨hproper.ne_nil, hproper.ne_dot, hproper.ne_dotdot⟩
  · exact fun Driver self checkAccess h => Mounted.VirtualFileSystem.validatePath_normalizePath h

/-- Repeated and trailing slashes, dots, and a "..". -/
example : Path.normalizePath "//a/./b//../c/".toList = "/a/c".toList := by decide

end Kernel.FileSystem
