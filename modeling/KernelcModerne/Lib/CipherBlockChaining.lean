import Mathlib.Data.List.Basic

/-! Block ciphers over lists: blocks chained into each other, and padding to
whole blocks. -/

namespace CipherBlockChaining

/-- A permutation of the blocks of `n` elements, with its inverse. -/
structure BlockCipher (α : Type*) (n : Nat) where
  encrypt : List α → List α
  decrypt : List α → List α
  length_encrypt : ∀ block, block.length = n → (encrypt block).length = n
  length_decrypt : ∀ block, block.length = n → (decrypt block).length = n
  decrypt_encrypt : ∀ block, block.length = n → decrypt (encrypt block) = block

section Chaining

variable {α : Type*} {n : Nat} (mix : α → α → α) (cipher : BlockCipher α n)

/-- `count` blocks of `data`, each mixed with the ciphertext before it. -/
def encrypt : Nat → List α → List α → List α
  | 0, _, _ => []
  | count + 1, previous, data =>
    let block := cipher.encrypt (List.zipWith mix (data.take n) previous)
    block ++ encrypt count block (data.drop n)

def decrypt : Nat → List α → List α → List α
  | 0, _, _ => []
  | count + 1, previous, data =>
    List.zipWith mix (cipher.decrypt (data.take n)) previous ++ decrypt count (data.take n) (data.drop n)

variable {mix}

theorem zipWith_cancel (hmix : ∀ a b, mix (mix a b) b = a) {first second : List α}
    (hlength : first.length = second.length) :
    List.zipWith mix (List.zipWith mix first second) second = first := by
  induction first generalizing second with
  | nil => cases second <;> rfl
  | cons a first ih =>
    cases second with
    | nil => cases hlength
    | cons b second => simp [hmix, ih (Nat.succ.inj hlength)]

variable {cipher}

theorem length_block {previous data : List α} (hprevious : previous.length = n) (hdata : n ≤ data.length) :
    (cipher.encrypt (List.zipWith mix (data.take n) previous)).length = n :=
  cipher.length_encrypt _ (by simp [hprevious, hdata])

theorem length_encrypt {count : Nat} {previous data : List α} (hprevious : previous.length = n)
    (hdata : data.length = count * n) : (encrypt mix cipher count previous data).length = count * n := by
  induction count generalizing previous data with
  | zero => simp [encrypt]
  | succ count ih =>
    rw [Nat.succ_mul] at hdata ⊢
    have hblock : (cipher.encrypt (List.zipWith mix (data.take n) previous)).length = n :=
      length_block hprevious (by omega)
    have hdrop : (data.drop n).length = count * n := by rw [List.length_drop]; omega
    have hrest := ih hblock hdrop
    simp only [encrypt, List.length_append, hblock, hrest]
    omega

theorem length_decrypt {count : Nat} {previous data : List α} (hprevious : previous.length = n)
    (hdata : data.length = count * n) : (decrypt mix cipher count previous data).length = count * n := by
  induction count generalizing previous data with
  | zero => simp [decrypt]
  | succ count ih =>
    rw [Nat.succ_mul] at hdata ⊢
    have htake : (data.take n).length = n := by simp; omega
    have hdrop : (data.drop n).length = count * n := by rw [List.length_drop]; omega
    have hrest := ih htake hdrop
    simp only [decrypt, List.length_append, List.length_zipWith, cipher.length_decrypt _ htake, hprevious, hrest,
      Nat.min_self]
    omega

/-- Decrypting with the same first block gives back what was encrypted. -/
theorem decrypt_encrypt (hmix : ∀ a b, mix (mix a b) b = a) {count : Nat} {previous data : List α}
    (hprevious : previous.length = n) (hdata : data.length = count * n) :
    decrypt mix cipher count previous (encrypt mix cipher count previous data) = data := by
  induction count generalizing previous data with
  | zero => exact (List.eq_nil_of_length_eq_zero (by simpa using hdata)).symm
  | succ count ih =>
    rw [Nat.succ_mul] at hdata
    have htake : (data.take n).length = n := by simp; omega
    have hblock : (cipher.encrypt (List.zipWith mix (data.take n) previous)).length = n :=
      length_block hprevious (by omega)
    have hmixed : (List.zipWith mix (data.take n) previous).length = n := by simp [htake, hprevious]
    have hdrop : (data.drop n).length = count * n := by rw [List.length_drop]; omega
    have hrest := ih hblock hdrop
    simp only [encrypt, decrypt, List.take_left' hblock, List.drop_left' hblock, hrest]
    rw [cipher.decrypt_encrypt _ hmixed, zipWith_cancel hmix (htake.trans hprevious.symm), List.take_append_drop]

end Chaining

section Padding

variable {α : Type*}

/-- How many elements fill up the last block; a whole block where it is full. -/
def padLength (n length : Nat) : Nat := n - length % n

/-- Padding whose elements tell how many they are. -/
def pad (code : Nat → α) (n : Nat) (data : List α) : List α :=
  data ++ List.replicate (padLength n data.length) (code (padLength n data.length))

theorem padLength_pos {n length : Nat} (hn : 0 < n) : 0 < padLength n length :=
  Nat.sub_pos_of_lt (Nat.mod_lt length hn)

theorem padLength_le (n length : Nat) : padLength n length ≤ n := Nat.sub_le _ _

theorem add_padLength {n length : Nat} (hn : 0 < n) : length + padLength n length = (length / n + 1) * n := by
  have hdiv := Nat.div_add_mod length n
  have hmod := Nat.mod_lt length hn
  rw [padLength, Nat.succ_mul, Nat.mul_comm]
  omega

theorem length_pad {code : Nat → α} {n : Nat} (hn : 0 < n) (data : List α) :
    (pad code n data).length = (data.length / n + 1) * n := by
  rw [pad, List.length_append, List.length_replicate, add_padLength hn]

variable [DecidableEq α]

/-- The data without its padding, where that is well formed. -/
def unpad (code : Nat → α) (value : α → Nat) (n : Nat) (padded : List α) : Option (List α) :=
  match padded.getLast? with
  | none => none
  | some last =>
    if 0 < value last ∧ value last ≤ n ∧
        padded.drop (padded.length - value last) = List.replicate (value last) (code (value last)) then
      some (padded.take (padded.length - value last))
    else none

theorem unpad_pad {code : Nat → α} {value : α → Nat} {n : Nat} (hn : 0 < n)
    (hcode : ∀ count ≤ n, value (code count) = count) (data : List α) :
    unpad code value n (pad code n data) = some data := by
  have hpositive : 0 < padLength n data.length := padLength_pos hn
  have hle := padLength_le n data.length
  have hlast : (pad code n data).getLast? = some (code (padLength n data.length)) := by
    rw [pad, List.getLast?_append, List.getLast?_replicate, if_neg (Nat.ne_of_gt hpositive)]
    rfl
  have hlength : (pad code n data).length - padLength n data.length = data.length := by simp [pad]
  simp only [unpad, hlast, hcode _ hle, hlength]
  rw [if_pos ⟨hpositive, hle, List.drop_left' rfl⟩]
  exact congrArg some (List.take_left' rfl)

/-- Padding is at most one block at the end. -/
theorem unpad_eq_some {code : Nat → α} {value : α → Nat} {n : Nat} {padded data : List α}
    (h : unpad code value n padded = some data) : ∃ count ≤ n, data = padded.take (padded.length - count) := by
  unfold unpad at h
  split at h
  · cases h
  · rw [Option.ite_none_right_eq_some, Option.some.injEq] at h
    exact ⟨_, h.1.2.1, h.2.symm⟩

end Padding

end CipherBlockChaining
