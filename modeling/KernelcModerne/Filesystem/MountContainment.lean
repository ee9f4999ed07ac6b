import KernelcModerne.Filesystem.PathNormalization

open LongestPrefix Splitting

namespace Kernel.FileSystem

namespace Path

/-- The components in front of the first that does not stay. -/
def approach : List Path → List Path
  | [] => []
  | component :: later => if Stays component later then component :: approach later else []

/-- The components from the first that does not stay. -/
def detour : List Path → List Path
  | [] => []
  | component :: later => if Stays component later then detour later else component :: later

/-- The text of the components `later` behind that of `first`. -/
def behind (first later : List Path) : Path :=
  if first = [] ∨ later = [] then ['/'].intercalate later else '/' :: ['/'].intercalate later

/-- What is typed before the first component that is empty, ".", ".." or undone. -/
def start (path : Path) : Path :=
  (if path.head? = some '/' then ['/'] else []) ++ ['/'].intercalate (approach path.components)

/-- What is typed from there on. -/
def wayRound (path : Path) : Path := behind (approach path.components) (detour path.components)

/-- What is typed from there on, but for the components that are empty, ".", ".."
or undone. Where no component stays, it is the root that follows an empty start. -/
def shortcut (path : Path) : Path :=
  if path.start = [] ∧ staying (detour path.components) = [] then ['/']
  else behind (approach path.components) (staying (detour path.components))

variable {first later names : List Path}

theorem intercalate_append (first later : List Path) :
    ['/'].intercalate (first ++ later) = ['/'].intercalate first ++ behind first later := by
  by_cases hlater : later = []
  · simp [behind, hlater]
  · induction first with
    | nil => simp [behind]
    | cons component first ih =>
      rw [behind, if_neg (by simp [hlater])]
      cases first with
      | nil => simp [List.intercalate_cons_of_ne_nil hlater]
      | cons next rest =>
        rw [behind, if_neg (by simp [hlater])] at ih
        simp only [List.cons_append] at ih ⊢
        rw [List.intercalate_cons_cons, List.intercalate_cons_cons, ih]
        simp only [List.append_assoc]

theorem approach_append_detour (names : List Path) : approach names ++ detour names = names := by
  induction names with
  | nil => rfl
  | cons component later ih =>
    unfold approach detour
    split
    · rw [List.cons_append, ih]
    · rfl

theorem staying_eq_append (names : List Path) : staying names = approach names ++ staying (detour names) := by
  induction names with
  | nil => rfl
  | cons component later ih =>
    rw [approach, detour]
    by_cases hstays : Stays component later
    · rw [staying, if_pos hstays, if_pos hstays, if_pos hstays, List.cons_append, ih]
    · rw [if_neg hstays, if_neg hstays, List.nil_append]

/-- A path is its root and its components. -/
theorem eq_root_append_components (path : Path) :
    path = (if path.head? = some '/' then ['/'] else []) ++ ['/'].intercalate path.components := by
  have hjoined (relative : Path) :
      ['/'].intercalate (if relative = [] then [] else relative.items) = relative := by
    by_cases hempty : relative = []
    · rw [if_pos hempty, hempty]
      rfl
    · rw [if_neg hempty, items, List.intercalate_splitOn]
  unfold components
  by_cases hroot : path.head? = some '/'
  · obtain ⟨relative, rfl⟩ := List.head?_eq_some_iff.mp hroot
    simp only [List.head?_cons, if_true, List.tail_cons, hjoined]
    rfl
  · simp only [if_neg hroot, hjoined, List.nil_append]

theorem resolved_eq_staying_components (path : Path) : path.resolved = staying path.components := by
  have hitems (relative : Path) :
      staying relative.items = staying (if relative = [] then [] else relative.items) := by
    by_cases hempty : relative = []
    · rw [if_pos hempty, hempty]
      decide
    · rw [if_neg hempty]
  rw [resolved_eq_staying]
  unfold components
  by_cases hroot : path.head? = some '/'
  · obtain ⟨relative, rfl⟩ := List.head?_eq_some_iff.mp hroot
    rw [items_cons_root, staying_root]
    simp only [List.head?_cons, if_true, List.tail_cons, hitems]
  · simp only [if_neg hroot, hitems]

theorem eq_start_append_wayRound (path : Path) : path = path.start ++ path.wayRound := by
  conv_lhs => rw [path.eq_root_append_components, ← approach_append_detour path.components]
  rw [intercalate_append, ← List.append_assoc]
  rfl

theorem behind_eq_nil_iff (h : ∀ component ∈ later, component ≠ []) : behind first later = [] ↔ later = [] := by
  constructor
  · intro hempty
    by_contra hlater
    obtain ⟨component, rest, rfl⟩ := List.exists_cons_of_ne_nil hlater
    have hne := h component List.mem_cons_self
    have hhead : (['/'].intercalate (component :: rest)).head? = component.head? := head?_intercalate hne
    unfold behind at hempty
    split at hempty
    · rw [hempty, List.head?_nil, eq_comm, List.head?_eq_none_iff] at hhead
      exact hne hhead
    · cases hempty
  · rintro rfl
    simp [behind]

/-- Normalizing takes the shortcut. -/
theorem normalizePath_eq_start_append_shortcut (path : Path) :
    path.normalizePath = path.start ++ path.shortcut := by
  have hresolved : path.items.foldl pushItem [] = approach path.components ++ staying (detour path.components) :=
    path.resolved_eq_staying_components.trans (staying_eq_append _)
  have hresult : (if path.head? = some '/' then ['/'] else []) ++ ['/'].intercalate (path.items.foldl pushItem []) =
      path.start ++ behind (approach path.components) (staying (detour path.components)) := by
    rw [hresolved, intercalate_append, ← List.append_assoc]
    rfl
  have hempty : path.start ++ behind (approach path.components) (staying (detour path.components)) = [] ↔
      path.start = [] ∧ staying (detour path.components) = [] := by
    rw [List.append_eq_nil_iff, behind_eq_nil_iff fun _ hmem => (staying_proper _ _ hmem).ne_nil]
  unfold normalizePath shortcut
  simp only [hresult, List.isEmpty_iff, hempty]
  split
  · next hnone => rw [hnone.1, List.nil_append]
  · rfl

/-- A name and the ".." that undoes it. -/
example : start "/mnt/a/../b/f".toList = "/mnt".toList ∧
    wayRound "/mnt/a/../b/f".toList = "/a/../b/f".toList ∧
    shortcut "/mnt/a/../b/f".toList = "/b/f".toList := by decide

end Path

namespace Mounted.VirtualFileSystem

variable {Driver : Type*}

/-- A mount point that goes on behind the start of the path goes on as the way
round exactly when it goes on as the shortcut. -/
def KeepsToWay (self : VirtualFileSystem Driver) (path : Path) : Prop :=
  ∀ ahead, ahead ≠ [] → path.start ++ ahead ∈ self.fsDrivers → (ahead <+: path.wayRound ↔ ahead <+: path.shortcut)

/-- An accepted path is served by the mount point of the normalized path exactly
when no mount point reaches past its start on one of the two ways only. -/
theorem contained_iff_keepsToWay (self : VirtualFileSystem Driver) (checkAccess : Path → Bool) (path : Path) :
    self.Contained checkAccess path ↔ (self.validatePath checkAccess path = true → self.KeepsToWay path) := by
  unfold Contained KeepsToWay
  refine forall_congr' fun _ => ?_
  rw [getMountPoint_eq, getMountPoint_eq, longestPrefix_eq_iff, path.normalizePath_eq_start_append_shortcut]
  conv_lhs => enter [mount, hmount, 1]; rw [path.eq_start_append_wayRound]
  constructor
  · intro h ahead _ hahead
    have hsame := h _ (AList.mem_keys.mp hahead)
    rwa [List.prefix_append_right_inj, List.prefix_append_right_inj] at hsame
  · intro h mount hmount
    by_cases hshort : mount <+: path.start
    · exact iff_of_true (List.prefix_append_of_prefix hshort) (List.prefix_append_of_prefix hshort)
    · by_cases hlong : path.start <+: mount
      · obtain ⟨ahead, rfl⟩ := hlong
        have hahead : ahead ≠ [] := by
          rintro rfl
          exact hshort (by rw [List.append_nil])
        rw [List.prefix_append_right_inj, List.prefix_append_right_inj]
        exact h ahead hahead (AList.mem_keys.mpr hmount)
      · -- the mount point is none of a path that starts so
        have hnot (rest : Path) : ¬ mount <+: path.start ++ rest := fun hstarts =>
          (List.prefix_or_prefix_of_prefix hstarts (List.prefix_append _ _)).elim hshort hlong
        exact iff_of_false (hnot _) (hnot _)

/-- The driver of one mount point is asked for a file of the other, where no
access is granted. -/
theorem traversal_reaches_other_mount : ¬ twoMounts.Contained (fun _ => false) "/mnt/a/../b/f".toList := by
  intro h
  exact absurd (h (by decide)) (by decide)

end Mounted.VirtualFileSystem

end Kernel.FileSystem
