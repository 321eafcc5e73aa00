import Strongbox.Cipher
import Strongbox.Proofs.Aes
import Strongbox.Proofs.Bytes
import Strongbox.Proofs.Padding

/-!
# The cipher is invertible

Chaining is undone block by block, so that under a key and an initialization vector whole blocks
are enciphered one to one onto whole blocks. With the padding, which is unambiguous, decryption
accepts exactly what encryption gives, and each ciphertext has one plaintext. The checks stand in
front of all that: the key first, then the vector, then the data.

## Main definitions

* `Cipher.encipher`, `Cipher.decipher`: the cipher on whole blocks, without padding

## Main results

* `Cipher.decipher_encipher`, `Cipher.encipher_decipher`: the cipher on whole blocks is invertible
* `Cipher.decrypt_eq_ok_iff`: a ciphertext decrypts to what encrypts to it
* `Cipher.exists_encrypt`, `Cipher.length_of_encrypt`: encryption never fails with a key and a
  vector that fit, and its length
* `Cipher.decrypt_accepts_image`: what decryption accepts, and how it refuses the rest
-/

namespace Strongbox.Cipher

open Aes (Block KeySize RoundKeys)

/-! ## Blocks and byte strings -/

@[simp] theorem length_bytes (xs : List Block) : (bytes xs).length = 16 * xs.length := by
  induction xs with
  | nil => rfl
  | cons x xs ih =>
    rw [bytes, List.flatMap_cons, List.length_append, Block.length_toBytes, List.length_cons]
    rw [bytes] at ih
    omega

/-- Whole blocks are the byte string of their blocks. -/
theorem bytes_blocks {data : Bytes} (h : 16 ∣ data.length) : bytes (blocks data) = data := by
  have hmap : (Bytes.blocks 16 data).map (fun x => (Block.ofBytes x).toBytes) =
      Bytes.blocks 16 data := by
    refine (List.map_congr_left fun x hx => ?_).trans (List.map_id _)
    exact Block.toBytes_ofBytes (Bytes.length_of_mem_blocks h hx)
  rw [bytes, blocks, List.flatMap_map, List.flatMap_def, hmap, Bytes.flatten_blocks (by decide)]

/-- Blocks are the blocks of their byte string. -/
theorem blocks_bytes (xs : List Block) : blocks (bytes xs) = xs := by
  have hlen : ∀ x ∈ xs.map Block.toBytes, x.length = 16 := by
    intro x hx
    obtain ⟨y, -, rfl⟩ := List.mem_map.mp hx
    exact Block.length_toBytes y
  rw [blocks, bytes, List.flatMap_def, Bytes.blocks_flatten (by decide) hlen, List.map_map]
  exact (List.map_congr_left fun x _ => Block.ofBytes_toBytes x).trans (List.map_id xs)

/-! ## Chaining -/

section Chaining

variable (keys : RoundKeys)

@[simp] theorem length_chain (previous : Block) (xs : List Block) :
    (chain keys previous xs).length = xs.length := by
  induction xs generalizing previous with
  | nil => rfl
  | cons x xs ih => rw [chain, List.length_cons, List.length_cons, ih]

@[simp] theorem length_unchain (previous : Block) (ys : List Block) :
    (unchain keys previous ys).length = ys.length := by
  induction ys generalizing previous with
  | nil => rfl
  | cons y ys ih => rw [unchain, List.length_cons, List.length_cons, ih]

/-- Chaining is undone: both sides carry the ciphertext block before. -/
theorem unchain_chain (previous : Block) (xs : List Block) :
    unchain keys previous (chain keys previous xs) = xs := by
  induction xs generalizing previous with
  | nil => rfl
  | cons x xs ih =>
    rw [chain, unchain, RoundKeys.decrypt_encrypt, Block.xor_xor_cancel, ih]

theorem chain_unchain (previous : Block) (ys : List Block) :
    chain keys previous (unchain keys previous ys) = ys := by
  induction ys generalizing previous with
  | nil => rfl
  | cons y ys ih =>
    rw [unchain, chain, Block.xor_xor_cancel, RoundKeys.encrypt_decrypt, ih]

/-- Enciphers whole blocks. -/
def encipher (start : Block) (data : Bytes) : Bytes := bytes (chain keys start (blocks data))

/-- Deciphers whole blocks. -/
def decipher (start : Block) (data : Bytes) : Bytes := bytes (unchain keys start (blocks data))

variable {start : Block} {data : Bytes}

theorem length_encipher (h : 16 ∣ data.length) :
    (encipher keys start data).length = data.length := by
  rw [encipher, length_bytes, length_chain, ← length_bytes, bytes_blocks h]

theorem length_decipher (h : 16 ∣ data.length) :
    (decipher keys start data).length = data.length := by
  rw [decipher, length_bytes, length_unchain, ← length_bytes, bytes_blocks h]

/-- **Deciphering undoes enciphering** on whole blocks. -/
theorem decipher_encipher (h : 16 ∣ data.length) :
    decipher keys start (encipher keys start data) = data := by
  rw [decipher, encipher, blocks_bytes, unchain_chain, bytes_blocks h]

/-- **Enciphering undoes deciphering** on whole blocks. -/
theorem encipher_decipher (h : 16 ∣ data.length) :
    encipher keys start (decipher keys start data) = data := by
  rw [decipher, encipher, blocks_bytes, chain_unchain, bytes_blocks h]

end Chaining

/-! ## Setting up -/

section SetUp

variable {key iv : Bytes}

theorem keySize_eq_ok_iff {length : Nat} {size : KeySize} :
    keySize length = .ok size ↔ size.keyLength = length := by
  constructor
  · intro h
    rw [keySize] at h
    split at h
    · rename_i size' hsize
      obtain rfl := Except.ok.inj h
      simpa using List.find?_some hsize
    · cases h
  · rintro rfl
    cases size <;> rfl

theorem exists_keySize_iff {length : Nat} :
    (∃ size, keySize length = .ok size) ↔ length ∈ [16, 24, 32] := by
  simp only [keySize_eq_ok_iff, List.mem_cons, List.not_mem_nil, or_false]
  constructor
  · rintro ⟨size, rfl⟩
    cases size <;> decide
  · rintro (rfl | rfl | rfl)
    exacts [⟨.aes128, rfl⟩, ⟨.aes192, rfl⟩, ⟨.aes256, rfl⟩]

/-- A length that is none of a key is what is told. -/
theorem keySize_eq_error {length : Nat} (h : length ∉ [16, 24, 32]) :
    keySize length = .error (.invalidInput (.keyLength length)) := by
  cases hsize : KeySize.ofKeyLength? length with
  | none => rw [keySize, hsize]
  | some size => exact absurd (exists_keySize_iff.mp ⟨size, by rw [keySize, hsize]⟩) h

/-- A key and a vector that fit are set up. -/
theorem exists_setUp (hkey : key.length ∈ [16, 24, 32]) (hiv : iv.length = 16) :
    ∃ keys start, setUp key iv = .ok (keys, start) := by
  obtain ⟨size, hsize⟩ := exists_keySize_iff.mpr hkey
  exact ⟨RoundKeys.expand size key, Block.ofBytes iv, by
    simp only [setUp, hsize, hiv, if_true, bind, Except.bind]⟩

theorem setUp_of_keyLength (hkey : key.length ∉ [16, 24, 32]) :
    setUp key iv = .error (.invalidInput (.keyLength key.length)) := by
  simp only [setUp, keySize_eq_error hkey, bind, Except.bind]

theorem setUp_of_ivLength (hkey : key.length ∈ [16, 24, 32]) (hiv : iv.length ≠ 16) :
    setUp key iv = .error (.invalidInput (.ivLength iv.length)) := by
  obtain ⟨size, hsize⟩ := exists_keySize_iff.mpr hkey
  simp only [setUp, hsize, hiv, if_false, bind, Except.bind]

/-- What cannot be set up neither encrypts nor decrypts. -/
theorem encrypt_of_setUp_error {error : Error} (h : setUp key iv = .error error) (data : Bytes) :
    encrypt key iv data = .error error := by
  simp only [encrypt, h, bind, Except.bind]

theorem decrypt_of_setUp_error {error : Error} (h : setUp key iv = .error error) (data : Bytes) :
    decrypt key iv data = .error error := by
  simp only [decrypt, h, bind, Except.bind]

end SetUp

/-! ## Encryption and decryption -/

section RoundTrip

variable {key iv : Bytes} {keys : RoundKeys} {start : Block}

theorem encrypt_of_setUp (h : setUp key iv = .ok (keys, start)) (data : Bytes) :
    encrypt key iv data = .ok (encipher keys start (Padding.pad data)) := by
  simp only [encrypt, h, bind, Except.bind]
  rfl

theorem decrypt_of_setUp (h : setUp key iv = .ok (keys, start)) (data : Bytes) :
    decrypt key iv data =
      if data.length % 16 ≠ 0 then .error .decryptionFailed
      else match Padding.unpad? (decipher keys start data) with
        | some plain => .ok plain
        | none => .error .decryptionFailed := by
  simp only [decrypt, h, bind, Except.bind]
  rfl

theorem sixteen_dvd_length_pad (data : Bytes) : 16 ∣ (Padding.pad data).length :=
  ⟨_, Padding.length_pad data⟩

/-- **A ciphertext decrypts to what encrypts to it**, and to nothing else. -/
theorem decrypt_eq_ok_iff (h : setUp key iv = .ok (keys, start)) {data plain : Bytes} :
    decrypt key iv data = .ok plain ↔ encrypt key iv plain = .ok data := by
  rw [decrypt_of_setUp h, encrypt_of_setUp h]
  constructor
  · intro hdec
    split at hdec
    · cases hdec
    · rename_i hlen
      have hdvd : 16 ∣ data.length := Nat.dvd_of_mod_eq_zero (not_not.mp hlen)
      split at hdec
      · rename_i plain' hplain
        obtain rfl := Except.ok.inj hdec
        rw [← Padding.eq_pad_of_unpad? (by rwa [length_decipher keys hdvd]) hplain,
          encipher_decipher keys hdvd]
      · cases hdec
  · intro henc
    obtain rfl := Except.ok.inj henc
    have hdvd := sixteen_dvd_length_pad plain
    rw [if_neg (by rw [length_encipher keys hdvd]; omega), decipher_encipher keys hdvd,
      Padding.unpad?_pad]

/-- With a key and a vector that fit, decryption refuses in one way only. -/
theorem decrypt_eq_ok_or_failed (h : setUp key iv = .ok (keys, start)) (data : Bytes) :
    (∃ plain, decrypt key iv data = .ok plain) ∨
      decrypt key iv data = .error .decryptionFailed := by
  rw [decrypt_of_setUp h]
  split
  · exact .inr rfl
  · split
    · exact .inl ⟨_, rfl⟩
    · exact .inr rfl

/-- What decryption refuses: what is no whole number of blocks, and blocks that end in no
padding. -/
theorem decrypt_eq_failed_iff (h : setUp key iv = .ok (keys, start)) {data : Bytes} :
    decrypt key iv data = .error .decryptionFailed ↔
      data = [] ∨ data.length % 16 ≠ 0 ∨ Padding.Malformed (decipher keys start data) := by
  rw [decrypt_of_setUp h]
  by_cases hlen : data.length % 16 ≠ 0
  · simp [hlen]
  rw [if_neg hlen]
  have hdvd : 16 ∣ data.length := Nat.dvd_of_mod_eq_zero (not_not.mp hlen)
  -- no bytes are whole blocks, but have no last byte that could count a padding
  by_cases hnil : data = []
  · subst hnil
    simp [decipher, blocks, bytes, unchain, Padding.unpad?]
  · have hlen' : 16 ∣ (decipher keys start data).length := by rwa [length_decipher keys hdvd]
    have hne : decipher keys start data ≠ [] := by
      intro h'
      rw [← List.length_eq_zero_iff, length_decipher keys hdvd] at h'
      exact hnil (List.length_eq_zero_iff.mp h')
    have hiff := Padding.unpad?_eq_none_iff hlen' hne
    cases hplain : Padding.unpad? (decipher keys start data) with
    | none => simp [hiff.mp hplain]
    | some plain =>
      have hgood : ¬ Padding.Malformed (decipher keys start data) := fun hbad => by
        rw [hiff.mpr hbad] at hplain
        cases hplain
      simp [hgood, hnil, not_not.mp hlen]

/-- Encryption never fails with a key and a vector that fit. -/
theorem exists_encrypt (hkey : key.length ∈ [16, 24, 32]) (hiv : iv.length = 16) (data : Bytes) :
    ∃ ciphertext, encrypt key iv data = .ok ciphertext := by
  obtain ⟨keys, start, h⟩ := exists_setUp hkey hiv
  exact ⟨_, encrypt_of_setUp h data⟩

/-- A ciphertext is one block longer than the whole blocks of the plaintext. -/
theorem length_of_encrypt {data ciphertext : Bytes} (h : encrypt key iv data = .ok ciphertext) :
    ciphertext.length = 16 * (data.length / 16 + 1) := by
  cases hset : setUp key iv with
  | error error =>
    rw [encrypt_of_setUp_error hset] at h
    cases h
  | ok p =>
    rw [encrypt_of_setUp hset] at h
    obtain rfl := Except.ok.inj h
    rw [length_encipher _ (sixteen_dvd_length_pad data), Padding.length_pad]

end RoundTrip

/-- **Decryption accepts exactly the image of encryption.** With a key and a vector that fit, a
byte string decrypts to a plaintext just when it is the ciphertext of that plaintext; every other
one is refused alike, be it empty, no whole number of blocks, or blocks that end in no padding. A
key that does not fit is told whatever the vector and the data are, and then a vector that does
not fit, whatever the data are. -/
theorem decrypt_accepts_image (key iv : Bytes) :
    (key.length ∈ [16, 24, 32] → iv.length = 16 →
      (∀ data plain, decrypt key iv data = .ok plain ↔ encrypt key iv plain = .ok data) ∧
      (∀ plain, ∃ data, encrypt key iv plain = .ok data) ∧
      (∀ data, decrypt key iv data = .error .decryptionFailed ↔
        ¬ ∃ plain, encrypt key iv plain = .ok data) ∧
      ∃ keys start, setUp key iv = .ok (keys, start) ∧
        ∀ data, (¬ ∃ plain, encrypt key iv plain = .ok data) ↔
          data = [] ∨ data.length % 16 ≠ 0 ∨ Padding.Malformed (decipher keys start data)) ∧
    (key.length ∉ [16, 24, 32] → ∀ data,
      encrypt key iv data = .error (.invalidInput (.keyLength key.length)) ∧
      decrypt key iv data = .error (.invalidInput (.keyLength key.length))) ∧
    (key.length ∈ [16, 24, 32] → iv.length ≠ 16 → ∀ data,
      encrypt key iv data = .error (.invalidInput (.ivLength iv.length)) ∧
      decrypt key iv data = .error (.invalidInput (.ivLength iv.length))) := by
  refine ⟨fun hkey hiv => ?_, fun hkey data => ?_, fun hkey hiv data => ?_⟩
  · obtain ⟨keys, start, h⟩ := exists_setUp hkey hiv
    have hrefused : ∀ data, decrypt key iv data = .error .decryptionFailed ↔
        ¬ ∃ plain, encrypt key iv plain = .ok data := by
      intro data
      simp only [← decrypt_eq_ok_iff h]
      rcases decrypt_eq_ok_or_failed h data with ⟨plain, hplain⟩ | hfailed
      · simp [hplain]
      · simp [hfailed]
    refine ⟨fun data plain => decrypt_eq_ok_iff h, exists_encrypt hkey hiv, hrefused,
      keys, start, h, fun data => ?_⟩
    rw [← hrefused, decrypt_eq_failed_iff h]
  · have h : setUp key iv = .error (.invalidInput (.keyLength key.length)) :=
      setUp_of_keyLength hkey
    exact ⟨encrypt_of_setUp_error h data, decrypt_of_setUp_error h data⟩
  · have h := setUp_of_ivLength hkey hiv
    exact ⟨encrypt_of_setUp_error h data, decrypt_of_setUp_error h data⟩

/-- A ciphertext of another implementation decrypts to its plaintext, and cut short it is no
ciphertext at all; a key of twenty bytes is told before an empty vector. -/
theorem decrypt_of_known_ciphertext :
    let key : Bytes := [0xa2, 0x19, 0x09, 0x9d, 0xe4, 0x4d, 0x66, 0x00, 0x57, 0x79, 0x8d, 0xd7,
      0x80, 0xe9, 0x64, 0x73]
    let iv : Bytes := [0, 1, 2, 3, 4, 5, 6, 7, 8, 9, 10, 11, 12, 13, 14, 15]
    let ciphertext : Bytes := [0x6c, 0xeb, 0x46, 0xac, 0x1b, 0x11, 0x73, 0x1c, 0x89, 0xfd, 0x24,
      0x9a, 0xb6, 0x5a, 0x9c, 0xc1]
    let plain : Bytes := [97, 116, 116, 97, 99, 107, 32, 97, 116, 32, 100, 97, 119, 110]
    decrypt key iv ciphertext = .ok plain ∧
      (¬ ∃ plain, encrypt key iv plain = .ok (ciphertext.take 15)) ∧
      decrypt (List.replicate 20 0) [] ciphertext = .error (.invalidInput (.keyLength 20)) ∧
      encrypt key [] plain = .error (.invalidInput (.ivLength 0)) := by
  intro key iv ciphertext plain
  have hfit := (decrypt_accepts_image key iv).1 (by decide) rfl
  refine ⟨(hfit.1 ciphertext plain).mpr (by decide +kernel),
    (hfit.2.2.1 (ciphertext.take 15)).mp (by decide +kernel), ?_, ?_⟩
  · exact ((decrypt_accepts_image (List.replicate 20 0) []).2.1 (by decide) ciphertext).2
  · exact ((decrypt_accepts_image key []).2.2 (by decide) (by decide) plain).1

end Strongbox.Cipher
