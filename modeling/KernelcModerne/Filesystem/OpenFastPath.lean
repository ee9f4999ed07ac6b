import KernelcModerne.Filesystem.OpenFiles

open Transition

namespace Kernel.FileSystem.Mounted

variable {Driver Cache Content : Type*}

/-- The services with a cache that never has the path. -/
def Services.uncached (services : Services Driver Cache Content) : Services Driver Cache Content :=
  { services with get cache _ := (cache, none) }

/-- What `openFile` relies on the file cache for: a path that it has nothing for
gets an entry by a `store` under that path only. It may drop entries at any time. -/
structure Services.Cached (services : Services Driver Cache Content) (empty : Cache) : Prop where
  get_empty : ∀ path, (services.get empty path).2 = none
  get_get : ∀ cache path other, (services.get cache path).2 = none →
    (services.get (services.get cache other).1 path).2 = none
  get_store : ∀ cache path other content, path ≠ other → (services.get cache path).2 = none →
    (services.get (services.store cache other content) path).2 = none

/-- A call of `openFile`, or what other code makes of the drivers. -/
inductive OpenOp (Driver : Type*) where
  | openFile (path : Path) (flags : UInt32)
  | setDrivers (fsDrivers : AList fun _ : Path => Driver)

namespace OpenFileSystem

variable (services : Services Driver Cache Content)

def step (self : OpenFileSystem Driver Cache) : OpenOp Driver → Option (OpenFileSystem Driver Cache)
  | .openFile path flags => some (self.openFile services path flags).1
  | .setDrivers fsDrivers => some { self with fsDrivers }

/-- The driver that is selected for the path accepts the flags. -/
def Accepts (self : OpenFileSystem Driver Cache) (path : Path) (flags : UInt32) : Prop :=
  ∃ driver, (self.getDriverForPath services.initialized path).1 = some driver ∧
    ∃ content, (services.openFile driver path flags).2 = .ok content

/-- The call is answered from the cache. -/
def Hits (self : OpenFileSystem Driver Cache) (path : Path) : Prop :=
  self.validatePath services.checkAccess path = true ∧ (services.get self.cache path).2 ≠ none

/-- The call asks the driver, which accepts, and stores its content. -/
def Opens (self : OpenFileSystem Driver Cache) (path : Path) (flags : UInt32) : Prop :=
  self.validatePath services.checkAccess path = true ∧ (services.get self.cache path).2 = none ∧
    self.Accepts services path flags

/-- What the call returns when it succeeds is what it returns without the cache. -/
def FastPathAgrees (self : OpenFileSystem Driver Cache) : OpenOp Driver → OpenFileSystem Driver Cache → Prop
  | .openFile path flags, _ => ∀ fd, (self.openFile services path flags).2 = .ok fd →
    (self.openFile services.uncached path flags).2 = .ok fd
  | .setDrivers _, _ => True

variable {services} {self : OpenFileSystem Driver Cache} {path : Path} {flags : UInt32}

theorem openFile_of_hits (h : self.Hits services path) :
    (self.openFile services path flags).2 = .ok self.files.openFiles.length := by
  obtain ⟨hvalid, hcached⟩ := h
  obtain ⟨content, hcontent⟩ := Option.ne_none_iff_exists'.mp hcached
  unfold openFile
  rw [if_neg (not_not.mpr hvalid)]
  cases hget : services.get self.cache path with
  | mk cache found =>
    rw [hget] at hcontent
    obtain rfl : found = some content := hcontent
    rfl

/-- Without a hit the call asks the driver. -/
theorem openFile_of_miss (services : Services Driver Cache Content)
    (hvalid : self.validatePath services.checkAccess path = true) (flags : UInt32)
    (hmiss : (services.get self.cache path).2 = none) :
    (∃ fd, (self.openFile services path flags).2 = .ok fd) ↔ self.Accepts services path flags := by
  unfold openFile Accepts
  rw [if_neg (not_not.mpr hvalid)]
  cases hget : services.get self.cache path with
  | mk cache found =>
    rw [hget] at hmiss
    obtain rfl : found = none := hmiss
    dsimp only
    cases hdriver : self.getDriverForPath services.initialized path with
    | mk selected drivers =>
      cases selected with
      | none => simp
      | some driver =>
        cases hanswer : (services.openFile driver path flags).2 with
        | error error => simp [hanswer]
        | ok content => simp [hanswer, FileTable.createFileDescriptor]

theorem openFile_of_invalid (h : ¬ self.validatePath services.checkAccess path = true) :
    self.openFile services path flags = (self, .error "Invalid path") := if_pos h

/-- The slot of a descriptor does not depend on the cache. -/
theorem openFile_eq_ok {fd : Nat} (h : (self.openFile services path flags).2 = .ok fd) :
    fd = self.files.openFiles.length := by
  cases self.openFile_files services path flags with
  | inl hfailed =>
    obtain ⟨error, herror, -⟩ := hfailed
    rw [h] at herror
    cases herror
  | inr hok => exact Except.ok.inj (h.symm.trans hok.1)

/-- The fast path agrees exactly where, on a hit, the driver accepts. -/
theorem fastPathAgrees_iff (after : OpenFileSystem Driver Cache) :
    self.FastPathAgrees services (.openFile path flags) after ↔
      (self.Hits services path → self.Accepts services path flags) := by
  by_cases hvalid : self.validatePath services.checkAccess path = true
  · have hslow : (∃ fd, (self.openFile services.uncached path flags).2 = .ok fd) ↔
        self.Accepts services path flags :=
      openFile_of_miss services.uncached hvalid flags rfl
    constructor
    · intro h hhits
      exact hslow.mp ⟨_, h _ (openFile_of_hits hhits)⟩
    · intro h fd hfd
      have haccepts : self.Accepts services path flags := by
        by_cases hmiss : (services.get self.cache path).2 = none
        · exact (openFile_of_miss services hvalid flags hmiss).mp ⟨fd, hfd⟩
        · exact h ⟨hvalid, hmiss⟩
      obtain ⟨fd', hfd'⟩ := hslow.mpr haccepts
      rw [hfd', openFile_eq_ok hfd, openFile_eq_ok hfd']
  · refine iff_of_true ?_ fun hhits => absurd hhits.1 hvalid
    intro fd hfd
    rw [openFile_of_invalid hvalid] at hfd
    cases hfd

/-- A call stores nothing in the cache but under the path that it opens. -/
theorem get_openFile {empty : Cache} (hcache : services.Cached empty) {other : Path} (path : Path)
    (flags : UInt32) (hmiss : (services.get self.cache other).2 = none) :
    (services.get (self.openFile services path flags).1.cache other).2 = none ∨
      other = path ∧ self.Opens services path flags := by
  by_cases hvalid : self.validatePath services.checkAccess path = true
  · have hget := hcache.get_get self.cache other path hmiss
    by_cases hopens : other = path ∧ self.Opens services path flags
    · exact .inr hopens
    · refine .inl ?_
      have hcall := openFile_of_miss services hvalid flags
      unfold openFile at hcall ⊢
      rw [if_neg (not_not.mpr hvalid)] at hcall ⊢
      cases hlookup : services.get self.cache path with
      | mk cache found =>
        rw [hlookup] at hget hcall
        cases found with
        | some content => exact hget
        | none =>
          dsimp only at hcall ⊢
          cases hdriver : self.getDriverForPath services.initialized path with
          | mk selected drivers =>
            rw [hdriver] at hcall
            cases selected with
            | none => exact hget
            | some driver =>
              dsimp only at hcall ⊢
              cases hanswer : (services.openFile driver path flags).2 with
              | error error => exact hget
              | ok content =>
                refine hcache.get_store cache other path content (fun heq => hopens ⟨heq, hvalid, ?_, ?_⟩) hget
                · rw [hlookup]
                · exact ⟨driver, by rw [hdriver], content, hanswer⟩
  · rw [openFile_of_invalid hvalid]
    exact .inl hmiss

/-- What is cached was stored by an earlier call that the driver accepted. -/
theorem exists_opens_of_cached {empty : Cache} (hcache : services.Cached empty)
    {start : OpenFileSystem Driver Cache} (hstart : start.cache = empty) (ops : List (OpenOp Driver))
    {after : OpenFileSystem Driver Cache} (hrun : run (step services) start ops = some after)
    (hcached : (services.get after.cache path).2 ≠ none) :
    ∃ first flags middle before, ops = first ++ .openFile path flags :: middle ∧
      run (step services) start first = some before ∧ before.Opens services path flags := by
  induction ops using List.reverseRecOn generalizing after with
  | nil =>
    obtain rfl := Option.some.inj hrun
    rw [hstart] at hcached
    exact absurd (hcache.get_empty path) hcached
  | append_singleton ops op ih =>
    rw [run_append, Option.bind_eq_some_iff] at hrun
    obtain ⟨before, hbefore, hrun⟩ := hrun
    rw [run_cons, Option.bind_eq_some_iff] at hrun
    obtain ⟨next, hop, hnext⟩ := hrun
    obtain rfl := Option.some.inj hnext
    by_cases hmiss : (services.get before.cache path).2 = none
    · -- the last call has stored the entry
      cases op with
      | openFile opened flags =>
        obtain rfl := Option.some.inj hop
        cases get_openFile hcache opened flags hmiss with
        | inl hstill => exact absurd hstill hcached
        | inr hopens =>
          obtain ⟨rfl, hopens⟩ := hopens
          exact ⟨ops, flags, [], before, rfl, hbefore, hopens⟩
      | setDrivers fsDrivers =>
        obtain rfl := Option.some.inj hop
        exact absurd hmiss hcached
    · obtain ⟨first, flags, middle, earlier, rfl, hfirst, hopens⟩ := ih hbefore hmiss
      exact ⟨first, flags, middle ++ [op], earlier, by simp, hfirst, hopens⟩

/-- No path that its driver has accepted is opened again with flags that the
driver selected then refuses, as long as its entry is in the cache. -/
def NoStaleHit (services : Services Driver Cache Content) (start : OpenFileSystem Driver Cache)
    (ops : List (OpenOp Driver)) : Prop :=
  ∀ first path flags middle flags' rest before after,
    ops = first ++ .openFile path flags :: (middle ++ .openFile path flags' :: rest) →
    run (step services) start first = some before → before.Opens services path flags →
    run (step services) start (first ++ .openFile path flags :: middle) = some after →
    after.Hits services path → after.Accepts services path flags'

/-- The fast path agrees with the slow one all along a run exactly when no entry outlives the
driver's consent. -/
theorem along_fastPathAgrees_iff {empty : Cache} (hcache : services.Cached empty)
    {start : OpenFileSystem Driver Cache} (hstart : start.cache = empty) (ops : List (OpenOp Driver)) :
    Along (step services) (FastPathAgrees services) start ops ↔ NoStaleHit services start ops := by
  rw [along_iff_forall_split]
  constructor
  · intro h first path flags middle flags' rest before after hops _ _ hafter
    have hsplit : ops = (first ++ .openFile path flags :: middle) ++ .openFile path flags' :: rest := by
      simp [hops]
    exact (fastPathAgrees_iff _).mp (h _ _ rest hsplit after _ hafter rfl)
  · intro h first op rest hops after next hrun hstep
    cases op with
    | setDrivers fsDrivers => trivial
    | openFile path flags' =>
      rw [fastPathAgrees_iff]
      intro hhits
      obtain ⟨earlier, flags, middle, before, rfl, hbefore, hopens⟩ :=
        exists_opens_of_cached hcache hstart first hrun hhits.2
      exact h earlier path flags middle flags' rest before after (by simp [hops]) hbefore hopens hrun hhits

/-- A cache of names that keeps all, and a driver that opens files without flags only. -/
def readOnly : Services Unit (List Path) Unit where
  get cache path := (cache, if cache.contains path then some () else none)
  store cache path _ := path :: cache
  initialized := some
  openFile driver _ flags := (driver, if flags = 0 then .ok () else .error "Read-only file system")
  checkAccess _ := true

def readOnlyMounted : OpenFileSystem Unit (List Path) where
  fsDrivers := AList.singleton ['/'] ()
  cache := []
  files := { nextFileDescriptorId := 0, openFiles := [] }

theorem readOnly_cached : readOnly.Cached [] where
  get_empty _ := rfl
  get_get _ _ _ h := h
  get_store cache path other _ hne h := by
    have habsent : path ∉ cache := by
      intro hmem
      simp [readOnly, hmem] at h
    simp [readOnly, hne, habsent]

theorem along_fastPathAgrees_readOnly : readOnly.Cached [] ∧
    (Along (step readOnly) (FastPathAgrees readOnly) readOnlyMounted
        [.openFile "/a".toList 0, .openFile "/a".toList 0] ↔
      NoStaleHit readOnly readOnlyMounted [.openFile "/a".toList 0, .openFile "/a".toList 0]) :=
  ⟨readOnly_cached, along_fastPathAgrees_iff readOnly_cached rfl _⟩

/-- The file is opened for reading first and then, from the cache, for writing. -/
theorem cached_file_opened_for_writing : ¬ Along (step readOnly) (FastPathAgrees readOnly) readOnlyMounted
    [.openFile "/a".toList 0, .openFile "/a".toList 1] := by
  intro h
  obtain ⟨_, h⟩ := h _ rfl
  obtain ⟨hagrees, _⟩ := h _ rfl
  exact absurd (hagrees 1 (by decide)) (by decide)

end OpenFileSystem

end Kernel.FileSystem.Mounted
