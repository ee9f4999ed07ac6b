import KernelcModerne.Filesystem.MountPoints

open LongestPrefix

namespace Kernel.FileSystem.Mounted.VirtualFileSystem

variable {Driver : Type*} {self self' : VirtualFileSystem Driver} {path mount : Path}

/-- The path is the mount point, or goes on behind it with a new component. -/
def Below (mount path : Path) : Prop :=
  path = mount ∨
    mount <+: path ∧ (mount.getLast? = some '/' ∨ (path.drop mount.length).head? = some '/')

instance (mount path : Path) : Decidable (Below mount path) := inferInstanceAs (Decidable (_ ∨ _))

theorem Below.isPrefix (h : Below mount path) : mount <+: path := by
  cases h with
  | inl heq => exact heq ▸ List.prefix_rfl
  | inr hstarts => exact hstarts.1

/-- The path is resolved to the longest mount point that it is below, if to any. -/
structure RespectsComponents (vfs : VirtualFileSystem Driver) (path : Path) : Prop where
  below : vfs.getMountPoint path ≠ [] →
    vfs.getMountPoint path ∈ vfs.fsDrivers ∧ Below (vfs.getMountPoint path) path
  longest : ∀ mount ∈ vfs.fsDrivers, Below mount path → mount.length ≤ (vfs.getMountPoint path).length

theorem length_le_getMountPoint (hmount : mount ∈ self.fsDrivers) (hstarts : mount <+: path) :
    mount.length ≤ (self.getMountPoint path).length := by
  rw [getMountPoint_eq]
  exact ((isPrefix_iff_longestPrefix (AList.mem_keys.mp hmount) path).mp hstarts).length_le

/-- Mount points are resolved by component exactly when none of them is a prefix of the path
that is longer than those the path is below. -/
theorem respectsComponents_iff (self : VirtualFileSystem Driver) (path : Path) :
    self.RespectsComponents path ↔ ∀ mount ∈ self.fsDrivers, mount ≠ [] → mount <+: path →
      ∃ above ∈ self.fsDrivers, Below above path ∧ mount.length ≤ above.length := by
  constructor
  · intro h mount hmount hne hstarts
    have hle := length_le_getMountPoint hmount hstarts
    have hfound : self.getMountPoint path ≠ [] := by
      intro hempty
      rw [hempty] at hle
      exact hne (List.eq_nil_of_length_eq_zero (Nat.le_zero.mp hle))
    obtain ⟨hmem, hbelow⟩ := h.below hfound
    exact ⟨_, hmem, hbelow, hle⟩
  · intro h
    refine ⟨fun hfound => ?_, fun mount hmount hbelow => length_le_getMountPoint hmount hbelow.isPrefix⟩
    obtain ⟨hstarts, hmem⟩ := getMountPoint_mounted hfound
    refine ⟨hmem, ?_⟩
    -- the longest prefix and a mount point no shorter that the path is below
    obtain ⟨above, habove, hbelow, hle⟩ := h _ hmem hfound hstarts
    have hsame : above = self.getMountPoint path :=
      (List.prefix_of_prefix_length_le hstarts hbelow.isPrefix hle).eq_of_length
        (Nat.le_antisymm hle (length_le_getMountPoint habove hbelow.isPrefix)) |>.symm
    exact hsame ▸ hbelow

/-- The file of a sibling goes to the driver of "/mnt/a". -/
theorem sibling_resolved : ¬ twoMounts.RespectsComponents "/mnt/ab/f".toList := by
  intro h
  exact absurd (h.below (by decide)).2 (by decide)

/-- The longest mount point that is a prefix of the path, and no other is as long; or none is. -/
structure UniqueLongest (vfs : VirtualFileSystem Driver) (path mount : Path) : Prop where
  found : mount ≠ [] → mount ∈ vfs.fsDrivers ∧ mount <+: path ∧
    ∀ other ∈ vfs.fsDrivers, other <+: path → other ≠ mount → other.length < mount.length
  none : mount = [] → ∀ other ∈ vfs.fsDrivers, other <+: path → other = []

theorem uniqueLongest_getMountPoint (self : VirtualFileSystem Driver) (path : Path) :
    self.UniqueLongest path (self.getMountPoint path) where
  found hfound := by
    obtain ⟨hstarts, hmem⟩ := getMountPoint_mounted hfound
    refine ⟨hmem, hstarts, fun other hother hstarts' hne => ?_⟩
    have hle := length_le_getMountPoint hother hstarts'
    refine Nat.lt_of_le_of_ne hle fun hlength => hne ?_
    exact (List.prefix_of_prefix_length_le hstarts' hstarts hle).eq_of_length hlength
  none hempty other hother hstarts' := by
    have hle := length_le_getMountPoint hother hstarts'
    rw [hempty] at hle
    exact List.eq_nil_of_length_eq_zero (Nat.le_zero.mp hle)

/-- The same drivers, visited in another order. -/
def SameDrivers (self self' : VirtualFileSystem Driver) : Prop :=
  self.fsDrivers.entries.Perm self'.fsDrivers.entries

theorem SameDrivers.mem_iff (h : SameDrivers self self') (mount : Path) :
    mount ∈ self.fsDrivers ↔ mount ∈ self'.fsDrivers := by
  rw [AList.mem_keys, AList.mem_keys]
  exact (h.map Sigma.fst).mem_iff

theorem UniqueLongest.eq {other : Path} (h : self.UniqueLongest path mount)
    (hother : self.UniqueLongest path other) : mount = other := by
  by_cases hempty : mount = []
  · by_cases hother' : other = []
    · rw [hempty, hother']
    · obtain ⟨hmem, hstarts, -⟩ := hother.found hother'
      exact absurd (h.none hempty other hmem hstarts) hother'
  · obtain ⟨hmem, hstarts, hlongest⟩ := h.found hempty
    by_contra hne
    by_cases hother' : other = []
    · exact hempty (hother.none hother' mount hmem hstarts)
    · obtain ⟨hmem', hstarts', hlongest'⟩ := hother.found hother'
      have hlt := hlongest other hmem' hstarts' (Ne.symm hne)
      have hlt' := hlongest' mount hmem hstarts hne
      omega

theorem SameDrivers.uniqueLongest (h : SameDrivers self self') (hunique : self'.UniqueLongest path mount) :
    self.UniqueLongest path mount where
  found hfound := by
    obtain ⟨hmem, hstarts, hlongest⟩ := hunique.found hfound
    refine ⟨(h.mem_iff mount).mpr hmem, hstarts, fun other hother => ?_⟩
    exact hlongest other ((h.mem_iff other).mp hother)
  none hempty other hother := hunique.none hempty other ((h.mem_iff other).mp hother)

theorem isWithinPermittedBoundaries_iff (self : VirtualFileSystem Driver) (checkAccess : Path → Bool)
    (path : Path) : self.isWithinPermittedBoundaries checkAccess path = true ↔
      (∃ mount ∈ self.fsDrivers, mount <+: path) ∧ checkAccess path = true := by
  unfold isWithinPermittedBoundaries
  cases hfind : self.fsDrivers.keys.find? fun mount => mount.isPrefixOf path with
  | none =>
    rw [List.find?_eq_none] at hfind
    refine iff_of_false (by simp) ?_
    rintro ⟨⟨mount, hmount, hstarts⟩, -⟩
    exact hfind mount (AList.mem_keys.mp hmount) (List.isPrefixOf_iff_prefix.mpr hstarts)
  | some mount =>
    have hstarts' := List.find?_some hfind
    have hstarts : mount <+: path := List.isPrefixOf_iff_prefix.mp hstarts'
    exact (and_iff_right ⟨mount, AList.mem_keys.mpr (List.mem_of_find?_eq_some hfind), hstarts⟩).symm

/-- Mount points are resolved in whatever order the map is visited. -/
theorem resolution_order_independent (h : SameDrivers self self') (checkAccess : Path → Bool) (path : Path) :
    self.getMountPoint path = self'.getMountPoint path ∧
      self.UniqueLongest path (self.getMountPoint path) ∧
      self.isWithinPermittedBoundaries checkAccess path =
        self'.isWithinPermittedBoundaries checkAccess path := by
  refine ⟨?_, self.uniqueLongest_getMountPoint path, ?_⟩
  · exact (self.uniqueLongest_getMountPoint path).eq (h.uniqueLongest (self'.uniqueLongest_getMountPoint path))
  · rw [Bool.eq_iff_iff, isWithinPermittedBoundaries_iff, isWithinPermittedBoundaries_iff]
    simp only [h.mem_iff]

/-- The two drivers in the other order. -/
def twoMountsReversed : VirtualFileSystem Nat where
  fsDrivers := (AList.singleton "/mnt/a".toList 1).insert "/mnt/b".toList 2

theorem resolution_order_independent_two :
    SameDrivers twoMounts twoMountsReversed ∧
      twoMounts.getMountPoint "/mnt/b/f".toList = twoMountsReversed.getMountPoint "/mnt/b/f".toList ∧
      twoMounts.UniqueLongest "/mnt/b/f".toList (twoMounts.getMountPoint "/mnt/b/f".toList) ∧
      twoMounts.isWithinPermittedBoundaries (fun _ => true) "/mnt/b/f".toList =
        twoMountsReversed.isWithinPermittedBoundaries (fun _ => true) "/mnt/b/f".toList := by
  have hsame : SameDrivers twoMounts twoMountsReversed := by
    unfold SameDrivers
    decide
  exact ⟨hsame, resolution_order_independent hsame _ _⟩

end Kernel.FileSystem.Mounted.VirtualFileSystem
