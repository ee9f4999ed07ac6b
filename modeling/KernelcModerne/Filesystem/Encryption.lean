import Mathlib.Algebra.Group.Nat.Defs
import KernelcModerne.Lib.CipherBlockChaining
import KernelcModerne.Lib.Transition
import KernelcModerne.Filesystem.MultiLevelCache

open Transition CipherBlockChaining

namespace Kernel.FileSystem

/-- The bytes of the padding: each is the number of them. -/
abbrev padding : Nat → UInt8 := UInt8.ofNat

/-- What the code uses of the cryptographic library: AES-256 in CBC mode with a
context that is initialised with `key` and `iv`, gets `data` in one call of
Update, and is finished by Final. Update leaves to Final what does not fill a
block, and when decrypting the last block; Final fails on a bad padding. -/
structure Evp where
  EVP_MAX_BLOCK_LENGTH : Nat
  aes256 : Data → BlockCipher UInt8 16
  EVP_EncryptUpdate (key iv data : Data) : Data
  EVP_EncryptFinal_ex (key iv data : Data) : Data
  EVP_DecryptUpdate (key iv data : Data) : Data
  EVP_DecryptFinal_ex (key iv data : Data) : Option Data
  le_maxBlockLength : 16 ≤ EVP_MAX_BLOCK_LENGTH
  length_encryptUpdate : ∀ key iv data, key.length = 32 → iv.length = 16 →
    (EVP_EncryptUpdate key iv data).length = data.length / 16 * 16
  encrypted : ∀ key iv data, key.length = 32 → iv.length = 16 →
    EVP_EncryptUpdate key iv data ++ EVP_EncryptFinal_ex key iv data =
      encrypt (· ^^^ ·) (aes256 key) (data.length / 16 + 1) iv (pad padding 16 data)
  length_decryptUpdate : ∀ key iv data count, key.length = 32 → iv.length = 16 → data.length = (count + 1) * 16 →
    (EVP_DecryptUpdate key iv data).length = count * 16
  decrypted : ∀ key iv data count, key.length = 32 → iv.length = 16 → data.length = (count + 1) * 16 →
    (EVP_DecryptFinal_ex key iv data).map (EVP_DecryptUpdate key iv data ++ ·) =
      unpad padding UInt8.toNat 16 (decrypt (· ^^^ ·) (aes256 key) (count + 1) iv data)

/-- The library over given ciphers. -/
def Evp.ofCiphers (aes256 : Data → BlockCipher UInt8 16) : Evp where
  EVP_MAX_BLOCK_LENGTH := 32
  aes256 := aes256
  EVP_EncryptUpdate key iv data :=
    (encrypt (· ^^^ ·) (aes256 key) (data.length / 16 + 1) iv (pad padding 16 data)).take (data.length / 16 * 16)
  EVP_EncryptFinal_ex key iv data :=
    (encrypt (· ^^^ ·) (aes256 key) (data.length / 16 + 1) iv (pad padding 16 data)).drop (data.length / 16 * 16)
  EVP_DecryptUpdate key iv data :=
    (decrypt (· ^^^ ·) (aes256 key) (data.length / 16) iv data).take (data.length - 16)
  EVP_DecryptFinal_ex key iv data :=
    (unpad padding UInt8.toNat 16 (decrypt (· ^^^ ·) (aes256 key) (data.length / 16) iv data)).map
      (·.drop (data.length - 16))
  le_maxBlockLength := by omega
  length_encryptUpdate := by
    intro key iv data _ hiv
    rw [List.length_take, length_encrypt hiv (length_pad (by omega) data)]
    omega
  encrypted := fun key iv data _ _ => List.take_append_drop _ _
  length_decryptUpdate := by
    intro key iv data count _ hiv hdata
    have hcount : data.length / 16 = count + 1 := by omega
    rw [hcount, List.length_take, length_decrypt hiv hdata]
    omega
  decrypted := by
    intro key iv data count _ hiv hdata
    have hcount : data.length / 16 = count + 1 := by omega
    rw [hcount]
    cases hplain : unpad padding UInt8.toNat 16 (decrypt (· ^^^ ·) (aes256 key) (count + 1) iv data) with
    | none => rfl
    | some plain =>
      obtain ⟨padLength, hle, rfl⟩ := unpad_eq_some hplain
      have hprefix (blocks : Data) (hblocks : blocks.length = (count + 1) * 16) :
          blocks.take (data.length - 16) =
            (blocks.take (blocks.length - padLength)).take (data.length - 16) := by
        rw [List.take_take, Nat.min_eq_left (by omega)]
      rw [Option.map_some, Option.map_some, hprefix _ (length_decrypt hiv hdata), List.take_append_drop]

structure EncryptionManager where
  key : Data

namespace EncryptionManager

def constructed : EncryptionManager where
  key := []

/-- `initialize` with the random bytes it draws, and whether the file could be
opened; its result, the manager and what it wrote to `keystore.bin`. -/
def initializeEncryption (key : Vector UInt8 32) (salt : Vector UInt8 16) (opened : Bool) :
    Bool × EncryptionManager × Option Data :=
  let iterations : Data := [0x10, 0x27, 0, 0]
  if opened then (true, { key := key.toList }, some (salt.toList ++ iterations ++ key.toList))
  else (false, { key := key.toList }, none)

/-- The length of a vector as the `int` that it is passed as; a negative one is
refused, and what the code then does is undefined. -/
def toInt (size : Nat) : Option Nat := if size % 2 ^ 32 < 2 ^ 31 then some (size % 2 ^ 32) else none

variable (evp : Evp)

/-- `encrypt` with the random bytes it draws. Undefined without a key, where the
sum of the lengths is no `int`, and where a write goes past the buffer. -/
def encrypt (self : EncryptionManager) (iv : Vector UInt8 16) (data : Data) : Option Data := do
  let inl ← toInt data.length
  let update := evp.EVP_EncryptUpdate self.key iv.toList (data.take inl)
  let final := evp.EVP_EncryptFinal_ex self.key iv.toList (data.take inl)
  if self.key.length = 32 ∧ update.length + final.length < 2 ^ 31 ∧
      update.length + final.length ≤ data.length + evp.EVP_MAX_BLOCK_LENGTH then
    some (iv.toList ++ (update ++ final))
  else none

/-- Undefined without a key, where there is no whole `iv`, where the padding is
bad (the second length is then not set), and where a write goes past the buffer. -/
def decrypt (self : EncryptionManager) (data : Data) : Option Data :=
  if data.length < 16 ∨ self.key.length ≠ 32 then none
  else do
    let iv := data.take 16
    let encryptedData := data.drop 16
    let inl ← toInt encryptedData.length
    let update := evp.EVP_DecryptUpdate self.key iv (encryptedData.take inl)
    let final ← evp.EVP_DecryptFinal_ex self.key iv (encryptedData.take inl)
    if update.length + final.length ≤ encryptedData.length then some (update ++ final) else none

variable {evp}

theorem xor_cancel (a b : UInt8) : a ^^^ b ^^^ b = a := by
  rw [UInt8.xor_assoc, UInt8.xor_self, UInt8.xor_zero]

theorem length_encrypted {key iv data : Data} (hkey : key.length = 32) (hiv : iv.length = 16) :
    (evp.EVP_EncryptUpdate key iv data ++ evp.EVP_EncryptFinal_ex key iv data).length =
      (data.length / 16 + 1) * 16 := by
  rw [evp.encrypted key iv data hkey hiv]
  exact length_encrypt hiv (length_pad (by omega) data)

theorem toInt_of_lt {size : Nat} (h : size < 2 ^ 31) : toInt size = some size := by
  rw [toInt, Nat.mod_eq_of_lt (by omega), if_pos h]

/-- What `encrypt` returns, and when. -/
theorem encrypt_eq_some_iff {self : EncryptionManager} {iv : Vector UInt8 16} {data cipher : Data}
    (hkey : self.key.length = 32) :
    self.encrypt evp iv data = some cipher ↔
      data.length % 2 ^ 32 < 2 ^ 31 - 16 ∧
        cipher = iv.toList ++ CipherBlockChaining.encrypt (· ^^^ ·) (evp.aes256 self.key)
          (data.length % 2 ^ 32 / 16 + 1) iv.toList (pad padding 16 (data.take (data.length % 2 ^ 32))) := by
  have htake : (data.take (data.length % 2 ^ 32)).length = data.length % 2 ^ 32 := by
    rw [List.length_take]
    exact Nat.min_eq_left (Nat.mod_le _ _)
  have hiv : iv.toList.length = 16 := Vector.length_toList
  have hlength : (evp.EVP_EncryptUpdate self.key iv.toList (data.take (data.length % 2 ^ 32)) ++
      evp.EVP_EncryptFinal_ex self.key iv.toList (data.take (data.length % 2 ^ 32))).length = _ :=
    length_encrypted hkey hiv
  have hencrypted := evp.encrypted self.key iv.toList (data.take (data.length % 2 ^ 32)) hkey hiv
  rw [htake] at hlength hencrypted
  rw [List.length_append] at hlength
  have hdata := Nat.mod_le data.length (2 ^ 32)
  have hmax := evp.le_maxBlockLength
  by_cases hint : data.length % 2 ^ 32 < 2 ^ 31
  · have hinl : toInt data.length = some (data.length % 2 ^ 32) := if_pos hint
    simp only [encrypt, hinl, Option.bind_eq_bind, Option.bind_some, hkey, hlength, true_and,
      Option.ite_none_right_eq_some, Option.some.injEq]
    rw [← hencrypted]
    constructor
    · rintro ⟨⟨hsum, -⟩, hcipher⟩
      exact ⟨by omega, hcipher.symm⟩
    · rintro ⟨hshort, hcipher⟩
      exact ⟨⟨by omega, by omega⟩, hcipher.symm⟩
  · have hinl : toInt data.length = none := if_neg hint
    simp only [encrypt, hinl]
    constructor
    · intro h
      cases h
    · rintro ⟨hshort, -⟩
      omega

theorem length_of_encrypt {self : EncryptionManager} {iv : Vector UInt8 16} {data cipher : Data}
    (hkey : self.key.length = 32) (h : self.encrypt evp iv data = some cipher) :
    cipher.length = 16 + (data.length % 2 ^ 32 / 16 + 1) * 16 := by
  obtain ⟨-, rfl⟩ := (encrypt_eq_some_iff hkey).mp h
  rw [List.length_append, Vector.length_toList, length_encrypt Vector.length_toList]
  rw [length_pad (by omega), List.length_take, Nat.min_eq_left (Nat.mod_le _ _)]

/-- `decrypt` of whole blocks after their `iv`. -/
theorem decrypt_blocks {self : EncryptionManager} {iv blocks plain : Data} {count : Nat}
    (hkey : self.key.length = 32) (hiv : iv.length = 16) (hblocks : blocks.length = (count + 1) * 16)
    (hshort : (count + 1) * 16 < 2 ^ 31) (hlength : plain.length ≤ (count + 1) * 16)
    (hplain : unpad padding UInt8.toNat 16
      (CipherBlockChaining.decrypt (· ^^^ ·) (evp.aes256 self.key) (count + 1) iv blocks) = some plain) :
    self.decrypt evp (iv ++ blocks) = some plain := by
  have hdecrypted := evp.decrypted self.key iv blocks count hkey hiv hblocks
  rw [hplain, Option.map_eq_some_iff] at hdecrypted
  obtain ⟨final, hfinal, rfl⟩ := hdecrypted
  have hbound : ¬ ((iv ++ blocks).length < 16 ∨ self.key.length ≠ 32) := by
    rw [List.length_append]
    omega
  have hinl : toInt blocks.length = some blocks.length := toInt_of_lt (hblocks ▸ hshort)
  rw [List.length_append] at hlength
  simp only [decrypt, if_neg hbound, List.take_left' hiv, List.drop_left' hiv, hinl, List.take_length, hfinal,
    Option.bind_eq_bind, Option.bind_some]
  rw [if_pos (hblocks ▸ hlength)]

/-- `decrypt` gives back what `encrypt` was given, as far as this could pass on
its length. -/
theorem decrypt_of_encrypt {self : EncryptionManager} {iv : Vector UInt8 16} {data cipher : Data}
    (hkey : self.key.length = 32) (h : self.encrypt evp iv data = some cipher) :
    self.decrypt evp cipher = some (data.take (data.length % 2 ^ 32)) := by
  obtain ⟨hshort, rfl⟩ := (encrypt_eq_some_iff hkey).mp h
  have hiv : iv.toList.length = 16 := Vector.length_toList
  have htake : (data.take (data.length % 2 ^ 32)).length = data.length % 2 ^ 32 := by
    rw [List.length_take]
    exact Nat.min_eq_left (Nat.mod_le _ _)
  have hpadded : (pad padding 16 (data.take (data.length % 2 ^ 32))).length =
      (data.length % 2 ^ 32 / 16 + 1) * 16 := by
    rw [length_pad (by omega), htake]
  refine decrypt_blocks hkey hiv (length_encrypt hiv hpadded) (by omega) (by rw [htake]; omega) ?_
  rw [decrypt_encrypt xor_cancel hiv hpadded]
  refine unpad_pad (by omega) (fun count hcount => ?_) _
  rw [UInt8.toNat_ofNat', Nat.mod_eq_of_lt (by omega)]

/-- A manager with what it has encrypted since it got its key. -/
structure Client where
  manager : EncryptionManager
  issued : List (Data × Data)

inductive Op where
  | initializeEncryption (key : Vector UInt8 32) (salt : Vector UInt8 16) (opened : Bool)
  | encrypt (iv : Vector UInt8 16) (data : Data)
  | decrypt (data : Data)

namespace Client

def constructed : Client where
  manager := .constructed
  issued := []

variable (evp) in
def step (client : Client) : Op → Option Client
  | .initializeEncryption key salt opened =>
    some { manager := (EncryptionManager.initializeEncryption key salt opened).2.1, issued := [] }
  | .encrypt iv data =>
    (client.manager.encrypt evp iv data).map fun cipher => { client with issued := (data, cipher) :: client.issued }
  | .decrypt data => (client.manager.decrypt evp data).map fun _ => client

/-- What was encrypted is decrypted up to the length that was passed on. -/
structure Readable (evp : Evp) (client : Client) : Prop where
  decrypts : ∀ entry ∈ client.issued,
    client.manager.decrypt evp entry.2 = some (entry.1.take (entry.1.length % 2 ^ 32)) ∧
      entry.2.length = 16 + (entry.1.length % 2 ^ 32 / 16 + 1) * 16
  complete : ∀ entry ∈ client.issued,
    client.manager.decrypt evp entry.2 = some entry.1 ↔ entry.1.length < 2 ^ 32

theorem key_of_encrypt {manager : EncryptionManager} {iv : Vector UInt8 16} {data cipher : Data}
    (h : manager.encrypt evp iv data = some cipher) : manager.key.length = 32 := by
  unfold EncryptionManager.encrypt at h
  cases hinl : toInt data.length with
  | none => simp [hinl] at h
  | some inl =>
    simp only [hinl, Option.bind_eq_bind, Option.bind_some, Option.ite_none_right_eq_some] at h
    exact h.1.1

theorem take_mod_eq_iff (data : Data) :
    data.take (data.length % 2 ^ 32) = data ↔ data.length < 2 ^ 32 := by
  rw [List.take_eq_self_iff]
  constructor
  · intro h
    have hmod := Nat.mod_lt data.length (show 0 < 2 ^ 32 by omega)
    omega
  · intro h
    rw [Nat.mod_eq_of_lt h]

theorem readable_of_decrypts {client : Client} (h : ∀ entry ∈ client.issued,
    client.manager.decrypt evp entry.2 = some (entry.1.take (entry.1.length % 2 ^ 32)) ∧
      entry.2.length = 16 + (entry.1.length % 2 ^ 32 / 16 + 1) * 16) : client.Readable evp where
  decrypts := h
  complete := by
    intro entry hentry
    rw [(h entry hentry).1, Option.some.injEq]
    exact take_mod_eq_iff entry.1

theorem step_readable {client after : Client} {op : Op} (h : client.Readable evp)
    (hstep : client.step evp op = some after) : after.Readable evp := by
  cases op with
  | initializeEncryption key salt opened =>
    obtain rfl := Option.some.inj hstep
    exact readable_of_decrypts nofun
  | encrypt iv data =>
    obtain ⟨cipher, hcipher, rfl⟩ := Option.map_eq_some_iff.mp hstep
    have hkey := key_of_encrypt hcipher
    refine readable_of_decrypts fun entry hentry => ?_
    cases hentry with
    | head => exact ⟨decrypt_of_encrypt hkey hcipher, length_of_encrypt hkey hcipher⟩
    | tail _ hentry => exact h.decrypts entry hentry
  | decrypt data =>
    obtain ⟨_, _, rfl⟩ := Option.map_eq_some_iff.mp hstep
    exact h

/-- A cipher that exchanges two blocks. -/
def exchanging (first second : Data) (hfirst : first.length = 16) (hsecond : second.length = 16) :
    BlockCipher UInt8 16 where
  encrypt block := if block = first then second else if block = second then first else block
  decrypt block := if block = first then second else if block = second then first else block
  length_encrypt := by
    intro block hblock
    split_ifs <;> assumption
  length_decrypt := by
    intro block hblock
    split_ifs <;> assumption
  decrypt_encrypt := by
    intro block _
    by_cases hone : block = first
    · by_cases heq : second = first <;> simp [hone, heq]
    · by_cases htwo : block = second <;> simp [hone, htwo]

/-- The example block of AES-256 and its ciphertext. -/
def examplePlaintext : Data :=
  [0x00, 0x11, 0x22, 0x33, 0x44, 0x55, 0x66, 0x77, 0x88, 0x99, 0xaa, 0xbb, 0xcc, 0xdd, 0xee, 0xff]

def exampleCiphertext : Data :=
  [0x8e, 0xa2, 0xb7, 0xca, 0x51, 0x67, 0x45, 0xbf, 0xea, 0xfc, 0x49, 0x90, 0x4b, 0x49, 0x60, 0x89]

/-- The library on the example block. -/
def exampleEvp : Evp := .ofCiphers fun _ => exchanging examplePlaintext exampleCiphertext rfl rfl

def exampleKey : Vector UInt8 32 := Vector.ofFn fun i => UInt8.ofNat i

/-- A file of six bytes. -/
def exampleFile : Data := [0x6b, 0x65, 0x72, 0x6e, 0x65, 0x6c]

/-- The `iv` under which the padded file is the example block. -/
def exampleIv : Vector UInt8 16 :=
  Vector.ofFn fun i => (pad padding 16 exampleFile).getD i 0 ^^^ examplePlaintext.getD i 0

end Client

end EncryptionManager

end Kernel.FileSystem
