import Mathlib.Algebra.Group.Action.Defs
import Mathlib.Algebra.Order.BigOperators.Group.List
import Mathlib.Algebra.Order.Ring.Nat
import KernelcModerne.Boot.BootErrors

open Throwing

namespace Kernel

namespace KernelImage

/-- The bytes that follow the header. -/
def body (layout : HeaderLayout) (image : List UInt8) : List UInt8 := image.drop layout.size

/-- The sum of the bytes modulo `2 ^ 32`. -/
def byteSum (bytes : List UInt8) : UInt32 := .ofNat (bytes.map UInt8.toNat).sum

/-- The length of the whole blocks of a text. -/
def blocksLength (bytes : List UInt8) : Nat := bytes.length / BUFFER_SIZE * BUFFER_SIZE

/-- The sum that `e_checksum` is compared with is that of the whole body. -/
def ComparesBody (layout : HeaderLayout) (image : List UInt8) : Prop :=
  checksum layout image = byteSum (body layout image)

/-- The bytes behind the last whole block of the body. -/
def unread (layout : HeaderLayout) (image : List UInt8) : List UInt8 :=
  (body layout image).drop (blocksLength (body layout image))

theorem byteSum_append (first second : List UInt8) :
    byteSum (first ++ second) = byteSum first + byteSum second := by
  unfold byteSum
  rw [List.map_append, List.sum_append, UInt32.ofNat_add]

theorem addBytes_eq (checksum : UInt32) (bytes : List UInt8) :
    addBytes checksum bytes = checksum + byteSum bytes := by
  induction bytes generalizing checksum with
  | nil => exact (UInt32.add_zero checksum).symm
  | cons byte bytes ih =>
    have hbyte : byteSum [byte] = byte.toUInt32 := by
      rw [byteSum, List.map_singleton, List.sum_singleton]
      exact UInt32.toNat_inj.mp (by simp)
    calc addBytes checksum (byte :: bytes)
      _ = addBytes (checksum + byte.toUInt32) bytes := rfl
      _ = checksum + (byteSum [byte] + byteSum bytes) := by rw [ih, hbyte, UInt32.add_assoc]
      _ = checksum + byteSum (byte :: bytes) := by rw [← byteSum_append, List.singleton_append]

/-- The loop adds the bytes of the whole blocks. -/
theorem checksumFrom_eq (checksum : UInt32) (rest : List UInt8) :
    checksumFrom checksum rest = checksum + byteSum (rest.take (blocksLength rest)) := by
  induction checksum, rest using checksumFrom.induct with
  | case1 checksum rest hshort =>
    have hnone : blocksLength rest = 0 := by simp [blocksLength, Nat.div_eq_of_lt hshort]
    rw [checksumFrom_of_short checksum hshort, hnone, List.take_zero]
    exact (UInt32.add_zero checksum).symm
  | case2 checksum rest hlong ih =>
    have hblocks : blocksLength rest = BUFFER_SIZE + blocksLength (rest.drop BUFFER_SIZE) := by
      simp only [blocksLength, List.length_drop]
      unfold BUFFER_SIZE at *
      omega
    rw [checksumFrom, if_neg hlong, ih, addBytes_eq, UInt32.add_assoc, ← byteSum_append, hblocks, List.take_add]

/-- The bytes of the body are those that are added and those that are not. -/
theorem byteSum_body (layout : HeaderLayout) (image : List UInt8) :
    byteSum (body layout image) = checksum layout image + byteSum (unread layout image) := by
  rw [checksum, checksumFrom_eq, UInt32.zero_add, unread, ← byteSum_append]
  exact congrArg byteSum (List.take_append_drop _ _).symm

theorem length_unread_lt (layout : HeaderLayout) (image : List UInt8) :
    (unread layout image).length < BUFFER_SIZE := by
  simp only [unread, blocksLength, List.length_drop]
  unfold BUFFER_SIZE
  omega

/-- Fewer bytes than a block have a sum that does not wrap. -/
theorem byteSum_eq_zero_iff {bytes : List UInt8} (h : bytes.length < BUFFER_SIZE) :
    byteSum bytes = 0 ↔ ∀ byte ∈ bytes, byte = 0 := by
  have hbound : (bytes.map UInt8.toNat).sum ≤ bytes.length * 255 := by
    have hle := (bytes.map UInt8.toNat).sum_le_card_nsmul 255 fun value hvalue => by
      obtain ⟨byte, _, rfl⟩ := List.mem_map.mp hvalue
      have hlt := byte.toNat_lt
      omega
    rwa [List.length_map, smul_eq_mul] at hle
  have hsum : byteSum bytes = 0 ↔ (bytes.map UInt8.toNat).sum = 0 := by
    unfold BUFFER_SIZE at h
    rw [byteSum, ← UInt32.toNat_inj, UInt32.toNat_ofNat_of_lt' (by simp only [UInt32.size]; omega)]
    rfl
  rw [hsum, List.sum_eq_zero_iff]
  simp [← UInt8.toNat_inj]

end KernelImage

namespace Bootloader

open KernelImage

/-- What the loader finds with `image` as its kernel file. -/
def withImage (env : Boot.Environment) (image : List UInt8) : Boot.Environment :=
  { env with image := some image }

/-- The validation answers true. -/
def Accepts (env : Boot.Environment) (image : List UInt8) : Prop :=
  ∀ self, ((validateKernelImage (withImage env image)).runAt self).1 = .ok true

variable {env : Boot.Environment} {image image' : List UInt8}

theorem accepts_iff : Accepts env image ↔ validImage (withImage env image) = true := by
  obtain ⟨messages, hreports, _⟩ := validateKernelImage_answers (withImage env image)
  constructor
  · exact fun h => Except.ok.inj ((hreports {}).1.symm.trans (h {}))
  · intro hvalid self
    rw [(hreports self).1, hvalid]

/-- An accepted image has the sum that its header names. -/
theorem Accepts.checksum_eq (h : Accepts env image) :
    checksum env.layout image = e_checksum env.layout (header image env.uninitialised) := by
  have hvalid := accepts_iff.mp h
  simp only [validImage, withImage, Bool.and_eq_true] at hvalid
  exact of_decide_eq_true hvalid.2

theorem header_eq_of_take_eq {uninitialised : Nat → UInt8} {size offset : Nat}
    (hsame : image.take size = image'.take size) (hoffset : offset < size) :
    header image uninitialised offset = header image' uninitialised offset := by
  have hget := congrArg (·[offset]?) hsame
  simp only [List.getElem?_take_of_lt hoffset] at hget
  simp only [header, List.getD_eq_getElem?_getD, hget]

theorem e_checksum_eq_of_take_eq (hfield : env.layout.e_checksum + 4 ≤ env.layout.size)
    (hsame : image.take env.layout.size = image'.take env.layout.size) :
    e_checksum env.layout (header image env.uninitialised) =
      e_checksum env.layout (header image' env.uninitialised) := by
  have hheader (i : Nat) (hi : i < 4) :
      header image env.uninitialised (env.layout.e_checksum + i) =
        header image' env.uninitialised (env.layout.e_checksum + i) :=
    header_eq_of_take_eq hsame (by omega)
  simp only [e_checksum, show List.range 4 = [0, 1, 2, 3] from rfl, List.foldr_cons, List.foldr_nil]
  rw [hheader 0 (by decide), hheader 1 (by decide), hheader 2 (by decide), hheader 3 (by decide)]

/-- The sum compared is that of the whole body exactly where the bytes behind its
last whole block are zero; and two accepted images with one header have bodies
of one sum exactly where these bytes have. -/
theorem comparesBody_iff (env : Boot.Environment) (image : List UInt8) :
    (ComparesBody env.layout image ↔ ∀ byte ∈ unread env.layout image, byte = 0) ∧
      ∀ image', env.layout.e_checksum + 4 ≤ env.layout.size →
        image.take env.layout.size = image'.take env.layout.size → Accepts env image → Accepts env image' →
          (byteSum (body env.layout image) = byteSum (body env.layout image') ↔
            byteSum (unread env.layout image) = byteSum (unread env.layout image')) := by
  constructor
  · rw [ComparesBody, byteSum_body, UInt32.left_eq_add]
    exact byteSum_eq_zero_iff (length_unread_lt _ _)
  · intro image' hfield hsame haccepts haccepts'
    have hsum : checksum env.layout image = checksum env.layout image' := by
      rw [haccepts.checksum_eq, haccepts'.checksum_eq, e_checksum_eq_of_take_eq hfield hsame]
    rw [byteSum_body, byteSum_body, hsum, UInt32.add_right_inj]

/-- A header that names the sum 0, before a body of one byte. -/
def imageOf (byte : UInt8) : List UInt8 :=
  ELFMAG ++ List.replicate 14 0 ++ [62] ++ List.replicate 49 0 ++ [byte]

theorem imageOf_accepted (byte : UInt8) : Accepts (machine 0 (.ok ())) (imageOf byte) := by
  have hsum : checksum ⟨68, 64⟩ (imageOf byte) = 0 :=
    checksumFrom_of_short 0 (by simp [imageOf, ELFMAG, BUFFER_SIZE])
  rw [accepts_iff]
  simp only [validImage, withImage, machine, hsum]
  rfl

/-- Two bodies of one byte. -/
theorem comparesBody_iff_oneByte :
    byteSum (body ⟨68, 64⟩ (imageOf 1)) = byteSum (body ⟨68, 64⟩ (imageOf 2)) ↔
      byteSum (unread ⟨68, 64⟩ (imageOf 1)) = byteSum (unread ⟨68, 64⟩ (imageOf 2)) :=
  (comparesBody_iff (machine 0 (.ok ())) (imageOf 1)).2 (imageOf 2) (by decide) (by decide)
    (imageOf_accepted 1) (imageOf_accepted 2)

/-- The body is not read, whatever it is. -/
theorem short_body_not_compared :
    Accepts (machine 0 (.ok ())) (imageOf 1) ∧ ¬ ComparesBody ⟨68, 64⟩ (imageOf 1) := by
  refine ⟨imageOf_accepted 1, ?_⟩
  have hsum : checksum ⟨68, 64⟩ (imageOf 1) = 0 := checksumFrom_of_short 0 (by decide)
  rw [ComparesBody, hsum]
  decide

end Bootloader

end Kernel
