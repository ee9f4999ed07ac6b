import KernelcModerne.Lib.RunLength

open RunLength

namespace Kernel.Memory

def PAGE_BYTES : Nat := 4096

/-- The bytes of a page. -/
structure Page where
  data : List UInt8
  length_data : data.length = PAGE_BYTES

structure CompressionEngine where
  compressed_pages : List (List UInt8)

namespace CompressionEngine

/-- The inner loop of `compressPage`. There is no result when it reads behind the
page. -/
def countRun (data : List UInt8) (i : Nat) (current count : UInt8) : Option UInt8 :=
  if i + count.toNat < PAGE_BYTES then
    match data[i + count.toNat]? with
    | none => none
    | some next => if next = current ∧ count < 255 then countRun data i current (count + 1) else some count
  else some count
termination_by 255 - count.toNat
decreasing_by
  rename_i h
  have hlt := UInt8.lt_iff_toNat_lt.mp h.2
  have hadd := UInt8.toNat_add count 1
  simp only [UInt8.reduceToNat] at hlt hadd
  omega

/-- What the inner loop counts from one element on is a run. -/
theorem countRun_isRun {data : List UInt8} {i : Nat} {current count result : UInt8}
    (hcount : 0 < count.toNat) (hrun : IsRun data i count.toNat current)
    (h : countRun data i current count = some result) :
    0 < result.toNat ∧ IsRun data i result.toNat current := by
  fun_induction countRun data i current count with
  | case1 count hlt hnone => cases h
  | case2 count hlt next hnext hmore ih =>
    have hlt := UInt8.lt_iff_toNat_lt.mp hmore.2
    have hadd : (count + 1).toNat = count.toNat + 1 := by
      have hadd := UInt8.toNat_add count 1
      simp only [UInt8.reduceToNat] at hlt hadd
      omega
    refine ih ?_ ?_ h
    · omega
    · rw [hadd]
      exact hrun.succ (hmore.1 ▸ hnext)
  | case3 count hlt next hnext hmore =>
    obtain rfl := Option.some.inj h
    exact ⟨hcount, hrun⟩
  | case4 count hend =>
    obtain rfl := Option.some.inj h
    exact ⟨hcount, hrun⟩

/-- The run-length loop of `compressPage` from `i` on. -/
def rleFrom (data : List UInt8) (i : Nat) (rle_compressed : List UInt8) : Option (List UInt8) :=
  if i < PAGE_BYTES then
    match _hcurrent : data[i]? with
    | none => none
    | some current =>
      match _hcount : countRun data i current 1 with
      | none => none
      | some count => rleFrom data (i + count.toNat) (rle_compressed ++ [count, current])
  else some rle_compressed
termination_by PAGE_BYTES - i
decreasing_by
  have hpos := (countRun_isRun (by decide) (isRun_one _hcurrent) _hcount).1
  omega

/-- `memcpy` of the stream to the page and `memset` of the rest. -/
def overwrite (rle_compressed : List UInt8) (h : rle_compressed.length < PAGE_BYTES) : Page where
  data := rle_compressed ++ List.replicate (PAGE_BYTES - rle_compressed.length) 0
  length_data := by
    rw [List.length_append, List.length_replicate]
    omega

def compressPage (lz4_compress : List UInt8 → List UInt8) (self : CompressionEngine) (page : Page) :
    Option (CompressionEngine × Page) :=
  let compressed := lz4_compress page.data
  let self : CompressionEngine := { compressed_pages := self.compressed_pages ++ [compressed] }
  if compressed.length ≥ 4096 then
    match rleFrom page.data 0 [] with
    | none => none
    | some rle_compressed =>
      if h : rle_compressed.length < 4096 then some (self, overwrite rle_compressed h) else some (self, page)
  else some (self, page)

/-- The stream of pairs of a count and a byte. -/
def streamOf (pairs : List (UInt8 × UInt8)) : List UInt8 := pairs.flatMap fun pair => [pair.1, pair.2]

def runsOf (pairs : List (UInt8 × UInt8)) : List (Nat × UInt8) := pairs.map fun pair => (pair.1.toNat, pair.2)

/-- The pairs of a buffer expanded up to the first count that is zero, or to the
end. -/
def expandBuffer : List UInt8 → List UInt8
  | count :: byte :: rest => if count = 0 then [] else List.replicate count.toNat byte ++ expandBuffer rest
  | _ => []

/-- Pairs that stand for the data up to `i`, each with a count of at least 1. -/
structure Emitted (data : List UInt8) (i : Nat) (pairs : List (UInt8 × UInt8)) : Prop where
  counts : ∀ pair ∈ pairs, 1 ≤ pair.1.toNat ∧ pair.1.toNat ≤ 255
  covers : Covers data (runsOf pairs) i

theorem expandBuffer_zeros (n : Nat) : expandBuffer (List.replicate n 0) = [] := by
  match n with
  | 0 => rfl
  | 1 => rfl
  | n + 2 => exact if_pos rfl

/-- The zeros behind a stream are not taken for a pair. -/
theorem expandBuffer_streamOf {pairs : List (UInt8 × UInt8)} (h : ∀ pair ∈ pairs, 1 ≤ pair.1.toNat) (n : Nat) :
    expandBuffer (streamOf pairs ++ List.replicate n 0) = expand (runsOf pairs) := by
  induction pairs with
  | nil => exact expandBuffer_zeros n
  | cons pair pairs ih =>
    obtain ⟨hpair, hpairs⟩ := List.forall_mem_cons.mp h
    have hne : pair.1 ≠ 0 := by
      intro hzero
      rw [hzero] at hpair
      exact absurd hpair (by decide)
    have hstream : streamOf (pair :: pairs) ++ List.replicate n 0 =
        pair.1 :: pair.2 :: (streamOf pairs ++ List.replicate n 0) := rfl
    rw [hstream, expandBuffer, if_neg hne, ih hpairs]
    rfl

/-- The inner loop stays inside the page. -/
theorem countRun_isSome {data : List UInt8} (hlength : data.length = PAGE_BYTES) (i : Nat)
    (current count : UInt8) : ∃ result, countRun data i current count = some result := by
  fun_induction countRun data i current count with
  | case1 count hlt hnone =>
    rw [List.getElem?_eq_none_iff] at hnone
    omega
  | case2 count hlt next hnext hmore ih => exact ih
  | case3 count hlt next hnext hmore => exact ⟨count, rfl⟩
  | case4 count hend => exact ⟨count, rfl⟩

theorem Emitted.concat {data : List UInt8} {i : Nat} {pairs : List (UInt8 × UInt8)} {count current : UInt8}
    (h : Emitted data i pairs) (hpos : 0 < count.toNat) (hrun : IsRun data i count.toNat current) :
    Emitted data (i + count.toNat) (pairs ++ [(count, current)]) where
  counts := by
    have hlt := count.toNat_lt
    refine List.forall_mem_append.mpr ⟨h.counts, List.forall_mem_singleton.mpr ⟨hpos, ?_⟩⟩
    exact Nat.le_of_lt_succ hlt
  covers := by
    have hruns : runsOf (pairs ++ [(count, current)]) = runsOf pairs ++ [(count.toNat, current)] :=
      List.map_append
    rw [hruns]
    exact h.covers.concat hrun

/-- The loop ends with a stream of pairs that stand for the page. -/
theorem rleFrom_spec {data : List UInt8} (hlength : data.length = PAGE_BYTES) {i : Nat}
    {pairs : List (UInt8 × UInt8)} (h : Emitted data i pairs) :
    ∃ all, rleFrom data i (streamOf pairs) = some (streamOf all) ∧
      (∀ pair ∈ all, 1 ≤ pair.1.toNat ∧ pair.1.toNat ≤ 255) ∧ expand (runsOf all) = data := by
  by_cases hlt : i < PAGE_BYTES
  · obtain ⟨current, hcurrent⟩ : ∃ current, data[i]? = some current :=
      ⟨_, List.getElem?_eq_getElem (hlength ▸ hlt)⟩
    obtain ⟨count, hcount⟩ := countRun_isSome hlength i current 1
    obtain ⟨hpos, hrun⟩ := countRun_isRun (by decide) (isRun_one hcurrent) hcount
    obtain ⟨all, hrest, hall⟩ := rleFrom_spec hlength (h.concat hpos hrun)
    refine ⟨all, ?_, hall⟩
    have hstream : streamOf (pairs ++ [(count, current)]) = streamOf pairs ++ [count, current] := by
      simp [streamOf]
    rw [hstream] at hrest
    rw [rleFrom, if_pos hlt]
    split
    · next hnone => simp [hcurrent] at hnone
    · next found hfound =>
      obtain rfl := Option.some.inj (hcurrent.symm.trans hfound)
      split
      · next hnone => simp [hcount] at hnone
      · next result hresult =>
        obtain rfl := Option.some.inj (hcount.symm.trans hresult)
        exact hrest
  · rw [rleFrom, if_neg hlt]
    exact ⟨pairs, rfl, h.counts, h.covers.expand_eq (by omega)⟩
termination_by PAGE_BYTES - i
decreasing_by omega

/-- The page is overwritten by the stream. -/
def Overwrites (lz4_compress : List UInt8 → List UInt8) (page : Page) (pairs : List (UInt8 × UInt8)) : Prop :=
  (lz4_compress page.data).length ≥ 4096 ∧ (streamOf pairs).length < 4096

/-- For every page the run-length loop ends inside the page, with a stream of
pairs that stand for the page, and the page is the same or can be expanded. -/
theorem compressPage_lossless (lz4_compress : List UInt8 → List UInt8) (self : CompressionEngine)
    (page : Page) :
    ∃ pairs, rleFrom page.data 0 [] = some (streamOf pairs) ∧
      (∀ pair ∈ pairs, 1 ≤ pair.1.toNat ∧ pair.1.toNat ≤ 255) ∧ expand (runsOf pairs) = page.data ∧
      ∃ after left, self.compressPage lz4_compress page = some (after, left) ∧
        (¬ Overwrites lz4_compress page pairs → left = page) ∧
        (Overwrites lz4_compress page pairs → expandBuffer left.data = page.data) := by
  have hnone : Emitted page.data 0 [] := ⟨fun pair hpair => absurd hpair List.not_mem_nil, covers_nil _⟩
  obtain ⟨pairs, hrle, hcounts, hexpand⟩ := rleFrom_spec page.length_data hnone
  have hloop : rleFrom page.data 0 [] = some (streamOf pairs) := hrle
  refine ⟨pairs, hloop, hcounts, hexpand, ?_⟩
  simp only [compressPage, hloop, Overwrites]
  by_cases hlarge : (lz4_compress page.data).length ≥ 4096
  · rw [if_pos hlarge]
    by_cases hsmall : (streamOf pairs).length < 4096
    · rw [dif_pos hsmall]
      refine ⟨_, _, rfl, fun hnot => absurd ⟨hlarge, hsmall⟩ hnot, fun _ => ?_⟩
      rw [← hexpand]
      exact expandBuffer_streamOf (fun pair hpair => (hcounts pair hpair).1) _
    · rw [dif_neg hsmall]
      exact ⟨_, page, rfl, fun _ => rfl, fun h => absurd h.2 hsmall⟩
  · rw [if_neg hlarge]
    exact ⟨_, page, rfl, fun _ => rfl, fun h => absurd h.1 hlarge⟩

end CompressionEngine

end Kernel.Memory
