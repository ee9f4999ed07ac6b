import KernelcModerne.Filesystem.CacheRuns
import KernelcModerne.Filesystem.ReadRuns

open Transition

namespace Kernel.FileSystem.VirtualFileSystem

variable {self after : VirtualFileSystem} {promotion : Promotion} {answers : ReadAnswers} {file : Data}
  {fd fd' : FileDescriptor} {size : Nat} {out : ReadResult}

/-- What a call of `read` that ends does to the cache and to the position. -/
inductive ReadEffect (self : VirtualFileSystem) (promotion : Promotion) (answers : ReadAnswers)
    (fd : FileDescriptor) (size : Nat) (cache : MultiLevelCache) (position : Nat) : Prop where
  /-- Nothing was asked for. -/
  | rejected : cache = self.multiLevelCache → position = fd.position →
      ReadEffect self promotion answers fd size cache position
  | hit (chunk : Data) : self.multiLevelCache.delivered fd.path = some chunk →
      cache = (self.multiLevelCache.get promotion fd.path answers.getTime).1 →
      fd.position + min size (Word64.sub chunk.length fd.position) ≤ chunk.length →
      position = fd.position + min size (Word64.sub chunk.length fd.position) →
      ReadEffect self promotion answers fd size cache position
  /-- A miss that reads nothing. -/
  | nothing : self.multiLevelCache.delivered fd.path = none →
      cache = (self.multiLevelCache.get promotion fd.path answers.getTime).1 → position = fd.position →
      ReadEffect self promotion answers fd size cache position
  | filled (chunk : Data) (time : Nat) : self.multiLevelCache.delivered fd.path = none →
      cache = (self.multiLevelCache.get promotion fd.path answers.getTime).1.put fd.path chunk false time →
      chunk.length ≤ size → position = fd.position + chunk.length →
      ReadEffect self promotion answers fd size cache position

/-- A miss reads nothing, or puts the bytes that it has read into the cache. -/
def Fills (cache : MultiLevelCache) (fd : FileDescriptor) (size : Nat) (result : ReadEnd) : Prop :=
  ∀ after fd' out, result = some (after, fd', out) →
    (after.multiLevelCache = cache ∧ fd'.position = fd.position) ∨
      ∃ chunk time, after.multiLevelCache = cache.put fd.path chunk false time ∧ chunk.length ≤ size ∧
        fd'.position = fd.position + chunk.length

theorem fills_unread (self : VirtualFileSystem) (fd : FileDescriptor) (size : Nat) (out : ReadResult) :
    Fills self.multiLevelCache fd size (some (self, fd, out)) := by
  rintro after fd' out' ⟨⟩
  exact .inl ⟨rfl, rfl⟩

theorem readRegion_fills (self : VirtualFileSystem) (answers : ReadAnswers) (mappedFile : MemoryMappedFile)
    (fd : FileDescriptor) (size : Nat) :
    Fills self.multiLevelCache fd size (self.readRegion answers mappedFile fd size) := by
  unfold readRegion
  split
  · exact fills_unread self fd size _
  · intro after fd' out h
    obtain ⟨mappedData, -, h⟩ := Option.bind_eq_some_iff.mp h
    obtain ⟨copied, hcopied, h⟩ := Option.bind_eq_some_iff.mp h
    obtain ⟨rfl, rfl, -⟩ := Prod.mk.inj (Option.some.inj h) |>.imp_right Prod.mk.inj
    unfold copyBytes at hcopied
    split at hcopied
    · next hle =>
      obtain rfl := Option.some.inj hcopied
      refine .inr ⟨_, answers.putTime, rfl, ?_, ?_⟩
      · rw [length_copied hle]
        exact Nat.min_le_left _ _
      · rw [length_copied hle]
    · cases hcopied

theorem readMapped_fills (self : VirtualFileSystem) (answers : ReadAnswers) (file : Data)
    (fd : FileDescriptor) (size : Nat) :
    Fills self.multiLevelCache fd size (self.readMapped answers file fd size) := by
  unfold readMapped
  split
  · exact readRegion_fills self answers _ fd size
  · simp only
    split
    · exact fills_unread _ fd size _
    · exact readRegion_fills _ answers _ fd size

theorem readBuffered_fills (self : VirtualFileSystem) (answers : ReadAnswers) (file : Data)
    (fd : FileDescriptor) (size : Nat) :
    Fills self.multiLevelCache fd size (self.readBuffered answers file fd size) := by
  unfold readBuffered
  split
  · exact fills_unread self fd size _
  · simp only
    split
    · exact fills_unread _ fd size _
    · split
      · rintro after fd' out ⟨⟩
        refine .inr ⟨_, answers.putTime, rfl, ?_, ?_⟩
        · exact (List.length_take_le _ _).trans (Nat.min_le_right _ _)
        · exact congrArg (fd.position + ·) (List.length_take_of_le (Nat.min_le_left _ _)).symm
      · exact fills_unread _ fd size _

theorem read_effect (h : self.read promotion answers file fd size = some (after, fd', out)) :
    ReadEffect self promotion answers fd size after.multiLevelCache fd'.position := by
  unfold read at h
  by_cases hzero : size = 0
  · rw [if_pos hzero] at h
    obtain ⟨rfl, rfl, -⟩ := Prod.mk.inj (Option.some.inj h) |>.imp_right Prod.mk.inj
    exact .rejected rfl rfl
  · rw [if_neg hzero] at h
    have hfound := (self.multiLevelCache.get_spec promotion fd.path answers.getTime).1
    cases hresult : self.multiLevelCache.get promotion fd.path answers.getTime with
    | mk cache cached =>
      rw [hresult] at h hfound
      have hcache : (self.multiLevelCache.get promotion fd.path answers.getTime).1 = cache := by rw [hresult]
      cases cached with
      | some chunk =>
        obtain ⟨copied, hcopied, h⟩ := Option.bind_eq_some_iff.mp h
        obtain ⟨rfl, rfl, -⟩ := Prod.mk.inj (Option.some.inj h) |>.imp_right Prod.mk.inj
        refine .hit chunk hfound.symm hcache.symm ?_ rfl
        by_contra hout
        rw [copyBytes, if_neg hout] at hcopied
        cases hcopied
      | none =>
        have hmiss : Fills cache fd size (some (after, fd', out)) := by
          rw [← h]
          dsimp only
          split
          · exact readMapped_fills _ answers file fd size
          · exact readBuffered_fills _ answers file fd size
        cases hmiss after fd' out rfl with
        | inl hnothing => exact .nothing hfound.symm (hnothing.1.trans hcache.symm) hnothing.2
        | inr hfilled =>
          obtain ⟨chunk, time, hput, hlength, hposition⟩ := hfilled
          exact .filled chunk time hfound.symm (by rw [hput, hcache]) hlength hposition

/-- A call of the file system: a read of a file with the bytes `file`, or a call on its cache. -/
inductive CacheCall where
  | read (descriptor : Nat) (size : UInt64) (answers : ReadAnswers) (file : Data)
  | put (key : String) (data : { data : Data // data.length < 2 ^ 64 }) (dirty : Bool) (now : Nat)
  | optimizeCache (order : EvictionOrder) (now : Nat)

namespace CacheCall

/-- One call, where `paths` gives the file of each descriptor. Nothing is known after one that is
undefined; the state is then left as it is. -/
def step (promotion : Promotion) (paths : Nat → String) (client : Client) : CacheCall → Option Client
  | .read descriptor size answers file =>
    let fd : FileDescriptor := ⟨paths descriptor, client.positions descriptor⟩
    match client.vfs.read promotion answers file fd size.toNat with
    | some (vfs, fd, _) => some { vfs, positions := Function.update client.positions descriptor fd.position }
    | none => some client
  | .put key data dirty now =>
    some { client with
      vfs := { client.vfs with multiLevelCache := client.vfs.multiLevelCache.put key data.1 dirty now } }
  | .optimizeCache order now =>
    match client.vfs.multiLevelCache.optimizeCache order now with
    | some multiLevelCache => some { client with vfs := { client.vfs with multiLevelCache } }
    | none => some client

/-- A read that finds its file in the cache copies bytes of the cached chunk. -/
def InBounds (promotion : Promotion) (paths : Nat → String) (client : Client) : CacheCall → Client → Prop
  | .read descriptor size answers _, _ => size.toNat ≠ 0 → ∀ cachedData,
    (client.vfs.multiLevelCache.get promotion (paths descriptor) answers.getTime).2 = some cachedData →
      let copySize := min size.toNat (Word64.sub cachedData.length (client.positions descriptor))
      client.positions descriptor + copySize ≤ cachedData.length
  | _, _ => True

/-- The chunk that is cached for the file of a read reaches to the descriptor's position. -/
def Reaches (paths : Nat → String) (client : Client) : CacheCall → Prop
  | .read descriptor size _ _ => size.toNat ≠ 0 → ∀ chunk,
    client.vfs.multiLevelCache.delivered (paths descriptor) = some chunk →
      client.positions descriptor ≤ chunk.length
  | _ => True

/-- What every call preserves of the cache. -/
structure Sound (cache : MultiLevelCache) : Prop where
  levels : cache.levels ≠ []
  unique : MultiLevelCache.UniqueKeys cache.levels
  chunk : ∀ key chunk, cache.delivered key = some chunk → chunk.length < 2 ^ 64

theorem constructed_sound : Sound .constructed where
  levels := List.cons_ne_nil _ _
  unique := MultiLevelCache.constructed_uniqueKeys
  chunk key chunk h := by
    rw [MultiLevelCache.delivered_constructed] at h
    cases h

variable {cache : MultiLevelCache}

theorem Sound.put (h : Sound cache) (key : String) {data : Data} (hdata : data.length < 2 ^ 64)
    (dirty : Bool) (now : Nat) : Sound (cache.put key data dirty now) where
  levels := by
    rw [← List.length_pos_iff, MultiLevelCache.length_put]
    exact List.length_pos_iff.mpr h.levels
  unique := h.unique.put key data dirty now
  chunk other chunk hfound := by
    rw [MultiLevelCache.put_spec h.levels] at hfound
    by_cases heq : other = key
    · rw [heq, Function.update_self, Option.some_inj] at hfound
      exact hfound ▸ hdata
    · rw [Function.update_of_ne heq] at hfound
      exact h.chunk other chunk hfound

theorem Sound.get (h : Sound cache) (promotion : Promotion) (key : String) (now : Nat) :
    Sound (cache.get promotion key now).1 where
  levels := by
    rw [← List.length_pos_iff, MultiLevelCache.length_get]
    exact List.length_pos_iff.mpr h.levels
  unique := h.unique.get promotion key now
  chunk other chunk hfound := by
    rw [(cache.get_spec promotion key now).2] at hfound
    exact h.chunk other chunk hfound

theorem Sound.optimizeCache (h : Sound cache) {order : EvictionOrder} {now : Nat}
    {after : MultiLevelCache} (hafter : cache.optimizeCache order now = some after) : Sound after where
  levels := by
    rw [MultiLevelCache.optimizeCache_levels hafter, ne_eq, List.map_eq_nil_iff]
    exact h.levels
  unique := h.unique.optimizeCache hafter
  chunk other chunk hfound := by
    rw [MultiLevelCache.delivered_optimizeCache h.unique hafter] at hfound
    split at hfound
    · cases hfound
    · exact h.chunk other chunk hfound

theorem Sound.read {fd fd' : FileDescriptor} {out : ReadResult} {self after : VirtualFileSystem}
    (h : Sound self.multiLevelCache) {size : UInt64}
    (hread : self.read promotion answers file fd size.toNat = some (after, fd', out)) :
    Sound after.multiLevelCache := by
  cases read_effect hread with
  | rejected hcache _ => exact hcache ▸ h
  | hit chunk _ hcache _ _ => exact hcache ▸ h.get promotion fd.path answers.getTime
  | nothing _ hcache _ => exact hcache ▸ h.get promotion fd.path answers.getTime
  | filled chunk time _ hcache hlength _ =>
    exact hcache ▸ (h.get promotion fd.path answers.getTime).put fd.path
      (Nat.lt_of_le_of_lt hlength size.toNat_lt) false time

theorem sound_step {paths : Nat → String} {client next : Client} {call : CacheCall}
    (h : Sound client.vfs.multiLevelCache) (hstep : step promotion paths client call = some next) :
    Sound next.vfs.multiLevelCache := by
  cases call with
  | read descriptor size answers file =>
    simp only [step] at hstep
    split at hstep
    · next hread =>
      cases hstep
      exact h.read hread
    · cases hstep
      exact h
  | put key data dirty now =>
    cases hstep
    exact h.put key data.2 dirty now
  | optimizeCache order now =>
    simp only [step] at hstep
    split at hstep
    · next hafter =>
      cases hstep
      exact h.optimizeCache hafter
    · cases hstep
      exact h

/-- The difference of the sizes does not wrap exactly up to the end of the chunk. -/
theorem add_min_sub_le_iff {chunk : Data} (hchunk : chunk.length < 2 ^ 64) (position size : Nat) :
    position + min size (Word64.sub chunk.length position) ≤ chunk.length ↔ position ≤ chunk.length := by
  constructor
  · omega
  · intro hle
    rw [Word64.sub_eq_of_le hle hchunk]
    omega

theorem inBounds_iff_reaches {paths : Nat → String} {client : Client} (h : Sound client.vfs.multiLevelCache)
    (call : CacheCall) (next : Client) :
    InBounds promotion paths client call next ↔ Reaches paths client call := by
  cases call with
  | read descriptor size answers file =>
    have hfound := (client.vfs.multiLevelCache.get_spec promotion (paths descriptor) answers.getTime).1
    simp only [InBounds, Reaches, hfound]
    refine imp_congr_right fun _ => forall_congr' fun chunk => forall_congr' fun hchunk => ?_
    exact add_min_sub_le_iff (h.chunk _ chunk hchunk) _ _
  | put key data dirty now => exact Iff.rfl
  | optimizeCache order now => exact Iff.rfl

/-- The descriptors of a file system as constructed stand at the start of their files. -/
def start : Client := Client.constructed fun _ => 0

/-- The cached reads of a run all stay in bounds exactly when each finds a chunk that reaches to the
position it reads from. -/
theorem along_inBounds_iff_reaches (promotion : Promotion) (paths : Nat → String) (calls : List CacheCall) :
    Along (step promotion paths) (InBounds promotion paths) start calls ↔
      Guarded (step promotion paths) (Reaches paths) start calls := by
  refine along_iff_along (fun client => Sound client.vfs.multiLevelCache) ?_ ?_ calls constructed_sound
  · exact fun client call next h _ => inBounds_iff_reaches h call next
  · exact fun client call next h hstep _ => sound_step h hstep

/-- A shorter chunk put under the path of a descriptor that has read four bytes. -/
theorem shorter_chunk_overread : ¬ Along (step .stay fun _ => "f") (InBounds .stay fun _ => "f") start
    [.read 0 4 Client.willing [0, 1, 2, 3], .put "f" ⟨[0], by decide⟩ false 0,
      .read 0 4 Client.willing []] := by
  intro h
  obtain ⟨_, h⟩ := h _ rfl
  obtain ⟨_, h⟩ := h _ rfl
  obtain ⟨hbounds, _⟩ := h _ rfl
  exact absurd (hbounds (by decide) [0] rfl) (by decide)

def IsRead : CacheCall → Prop
  | .read .. => True
  | _ => False

/-- Each descriptor stands in the chunk cached for its file, or has read nothing yet. -/
def Within (paths : Nat → String) (client : Client) : Prop :=
  ∀ descriptor, match client.vfs.multiLevelCache.delivered (paths descriptor) with
    | some chunk => client.positions descriptor ≤ chunk.length
    | none => client.positions descriptor = 0

theorem within_iff {paths : Nat → String} {client : Client} : Within paths client ↔ ∀ descriptor,
    (∀ chunk, client.vfs.multiLevelCache.delivered (paths descriptor) = some chunk →
      client.positions descriptor ≤ chunk.length) ∧
    (client.vfs.multiLevelCache.delivered (paths descriptor) = none → client.positions descriptor = 0) := by
  refine forall_congr' fun descriptor => ?_
  cases client.vfs.multiLevelCache.delivered (paths descriptor) <;> simp

/-- What a read leaves of the cache and of the position of its descriptor. -/
theorem within_read {paths : Nat → String} {client : Client} (hsound : Sound client.vfs.multiLevelCache)
    (h : Within paths client) {descriptor size position : Nat} {vfs : VirtualFileSystem}
    (heffect : ReadEffect client.vfs promotion answers ⟨paths descriptor, client.positions descriptor⟩ size
      vfs.multiLevelCache position) :
    Within paths { vfs, positions := Function.update client.positions descriptor position } := by
  rw [within_iff] at h ⊢
  intro other
  have hget := (client.vfs.multiLevelCache.get_spec promotion (paths descriptor) answers.getTime).2
  cases heffect with
  | rejected hcache hposition =>
    rw [hcache, hposition, Function.update_eq_self]
    exact h other
  | nothing _ hcache hposition =>
    rw [hcache, hget, hposition, Function.update_eq_self]
    exact h other
  | hit chunk hfound hcache hbounds hposition =>
    rw [hcache, hget]
    dsimp only at hfound hbounds hposition ⊢
    by_cases heq : other = descriptor
    · subst heq
      rw [Function.update_self, hposition]
      simp [hfound, hbounds]
    · rw [Function.update_of_ne heq]
      exact h other
  | filled chunk time hmiss hcache _ hposition =>
    have hlevels := (hsound.get promotion (paths descriptor) answers.getTime).levels
    have hstart : client.positions descriptor = 0 := (h descriptor).2 hmiss
    rw [hcache, MultiLevelCache.put_spec hlevels, hget]
    dsimp only at hposition ⊢
    by_cases hpath : paths other = paths descriptor
    · rw [hpath, Function.update_self]
      have hother : client.positions other = 0 := (h other).2 (by rw [hpath]; exact hmiss)
      by_cases heq : other = descriptor
      · subst heq
        simp [hposition, hother]
      · simp [Function.update_of_ne heq, hother]
    · have heq : other ≠ descriptor := by
        rintro rfl
        exact hpath rfl
      rw [Function.update_of_ne hpath, Function.update_of_ne heq]
      exact h other

theorem within_start (paths : Nat → String) : Within paths start := by
  rw [within_iff]
  intro descriptor
  have hempty : start.vfs.multiLevelCache.delivered (paths descriptor) = none :=
    MultiLevelCache.delivered_constructed (paths descriptor)
  rw [hempty]
  exact ⟨by simp, fun _ => rfl⟩

/-- As long as nothing is evicted and no one else puts chunks into the cache, every cached read stays
in bounds. -/
theorem along_inBounds_of_reads (promotion : Promotion) (paths : Nat → String) {calls : List CacheCall}
    (hreads : ∀ call ∈ calls, IsRead call) :
    Along (step promotion paths) (InBounds promotion paths) start calls := by
  refine along_of_guarded (fun client => Sound client.vfs.multiLevelCache ∧ Within paths client) ?_ calls
    ⟨constructed_sound, within_start paths⟩ (guarded_of_forall hreads start)
  rintro client call next ⟨hsound, hwithin⟩ hread hstep
  refine ⟨(inBounds_iff_reaches hsound call next).mpr ?_, sound_step hsound hstep, ?_⟩
  · cases call with
    | read descriptor size answers file => exact fun _ => (within_iff.mp hwithin descriptor).1
    | put => cases hread
    | optimizeCache => cases hread
  · cases call with
    | read descriptor size answers file =>
      simp only [step] at hstep
      split at hstep
      · next hend =>
        cases hstep
        exact within_read hsound hwithin (read_effect hend)
      · cases hstep
        exact hwithin
    | put => cases hread
    | optimizeCache => cases hread

end CacheCall

end Kernel.FileSystem.VirtualFileSystem
