import Mathlib.Init

namespace Kernel.KernelImage

def ELFMAG : List UInt8 := [0x7f, 0x45, 0x4c, 0x46]
def EM_X86_64 : Nat := 62

/-- The size of the block that the checksum loop reads at a time. -/
def BUFFER_SIZE : Nat := 4096

/-- The layout of the header structure: its size and where it has `e_checksum`. -/
structure HeaderLayout where
  size : Nat
  e_checksum : Nat

/-- The header after the first `read`: the bytes of the file, and past its end
what the structure held before. -/
def header (image : List UInt8) (uninitialised : Nat → UInt8) (offset : Nat) : UInt8 :=
  image.getD offset (uninitialised offset)

def hasMagic (header : Nat → UInt8) : Bool := (List.range 4).map header = ELFMAG

def e_machine (header : Nat → UInt8) : Nat := (header 18).toNat + 256 * (header 19).toNat

def e_checksum (layout : HeaderLayout) (header : Nat → UInt8) : UInt32 :=
  .ofNat <| (List.range 4).foldr (fun i sum => (header (layout.e_checksum + i)).toNat + 256 * sum) 0

/-- The loop over `gcount()` bytes of the buffer. -/
def addBytes (checksum : UInt32) (buffer : List UInt8) : UInt32 :=
  buffer.foldl (fun checksum byte => checksum + byte.toUInt32) checksum

/-- The loop over the blocks, with `rest` still to be read. A `read` that
delivers less than a block is false. -/
def checksumFrom (checksum : UInt32) (rest : List UInt8) : UInt32 :=
  if rest.length < BUFFER_SIZE then checksum
  else checksumFrom (addBytes checksum (rest.take BUFFER_SIZE)) (rest.drop BUFFER_SIZE)
termination_by rest.length
decreasing_by
  simp only [List.length_drop]
  unfold BUFFER_SIZE at *
  omega

theorem checksumFrom_of_short (checksum : UInt32) {rest : List UInt8} (h : rest.length < BUFFER_SIZE) :
    checksumFrom checksum rest = checksum := by
  rw [checksumFrom, if_pos h]

/-- The sum that is compared with `e_checksum`. -/
def checksum (layout : HeaderLayout) (image : List UInt8) : UInt32 :=
  checksumFrom 0 (image.drop layout.size)

end Kernel.KernelImage
