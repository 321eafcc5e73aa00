import Strongbox.Proofs.Cipher
import Strongbox.Proofs.Derivation.Length
import Strongbox.Vault.Basic

/-!
# Sealing and opening payloads

A payload is an initialization vector with the ciphertext under the key that is derived with that
vector as salt. A vault that has its password makes such payloads and reads them, and nothing
else; which keys and vectors the cipher takes never shows, since the keys have the length of an
AES key by construction and the vectors are drawn or cut out as one block.

## Main definitions

* `Vault.Sealed kdf password iv data payload`: a payload under a vector

## Main results

* `AesVault.exists_open`, `AesVault.eq_of_open`: which vaults can be opened, and what is in them
* `AesVault.exists_encrypt`: a vault with its password seals every byte string
* `AesVault.decrypt_eq_ok_iff`: it reads what is sealed under its password, and nothing else
-/

namespace Strongbox

/-- A payload under a vector: the vector, and behind it the ciphertext under the key derived with
the vector as salt. -/
def Vault.Sealed (kdf : Kdf) (password : Password) (iv data payload : Bytes) : Prop :=
  ∃ key ciphertext, kdf.deriveKey password.bytes iv = .ok key ∧
    Cipher.encrypt key.bytes iv data = .ok ciphertext ∧ payload = iv ++ ciphertext

namespace Vault.Sealed

variable {kdf : Kdf} {password : Password} {iv data payload : Bytes}

/-- Under a key of an AES length every vector of one block seals every byte string. -/
theorem exists_payload (password : Password) (hlen : kdf.keyLength ∈ [16, 24, 32])
    (hiv : iv.length = 16) (data : Bytes) : ∃ payload, Sealed kdf password iv data payload := by
  obtain ⟨key, hkey, hkeyLen⟩ := kdf.exists_deriveKey password.bytes iv
  rw [← hkeyLen] at hlen
  obtain ⟨ciphertext, hcipher⟩ := Cipher.exists_encrypt hlen hiv data
  exact ⟨_, key, ciphertext, hkey, hcipher, rfl⟩

/-- The vector is one block, and the ciphertext ends with a block that is padding at least in
part. -/
theorem length_payload (h : Sealed kdf password iv data payload) (hiv : iv.length = 16) :
    payload.length = 16 + 16 * (data.length / 16 + 1) := by
  obtain ⟨key, ciphertext, -, hcipher, rfl⟩ := h
  rw [List.length_append, hiv, Cipher.length_of_encrypt hcipher]

end Vault.Sealed

namespace Iv

theorem ofPrefix?_append {iv : Bytes} (h : iv.length = blockLength) (rest : Bytes) :
    ofPrefix? (iv ++ rest) = some ⟨iv, h⟩ := by
  have hroom : blockLength ≤ (iv ++ rest).length := by
    rw [List.length_append, h]
    exact Nat.le_add_right ..
  have htake : (iv ++ rest).take blockLength = iv := h ▸ List.take_left
  rw [ofPrefix?, dif_pos hroom]
  exact congrArg some (Iv.mk.injEq .. |>.mpr htake)

theorem eq_append_of_ofPrefix? {payload : Bytes} {iv : Iv} (h : ofPrefix? payload = some iv) :
    payload = iv.bytes ++ payload.drop blockLength := by
  rw [ofPrefix?] at h
  split at h
  · obtain rfl := Option.some.inj h
    exact (List.take_append_drop ..).symm
  · cases h

end Iv

namespace AesVault

variable {kdf : Kdf} {password : Password} {codec : Codec} {random : Random} {vault : AesVault}

/-! ## Opening -/

/-- A vault opens with a password that is not empty, if the keys have the length of an AES key. -/
theorem exists_open (hpassword : password.isEmpty = false) (hlen : kdf.keyLength ∈ [16, 24, 32])
    (codec : Codec) (random : Random) :
    ∃ vault, AesVault.open kdf password codec random = .ok vault := by
  rw [AesVault.open, hpassword, if_neg Bool.false_ne_true]
  split
  · exact ⟨_, rfl⟩
  · rename_i hnone
    obtain ⟨size, hsize⟩ := Cipher.exists_keySize_iff.mpr hlen
    rw [Cipher.keySize, hnone] at hsize
    cases hsize

/-- What is in a vault that was opened. -/
theorem eq_of_open (h : AesVault.open kdf password codec random = .ok vault) :
    vault.kdf = kdf ∧ vault.codec = codec ∧ vault.random = random ∧
      vault.password = some password := by
  rw [AesVault.open] at h
  split at h
  · cases h
  · split at h
    · obtain rfl := Except.ok.inj h
      exact ⟨rfl, rfl, rfl, rfl⟩
    · cases h

/-- The keys of a vault have the length of an AES key. -/
theorem keyLength_mem (vault : AesVault) : vault.kdf.keyLength ∈ [16, 24, 32] := by
  rw [← vault.keyLength_keySize]
  cases vault.keySize <;> decide

/-! ## With the password -/

section Open

variable (h : vault.password = some password)

include h

theorem passwordDue_of_some : vault.passwordDue = .ok password := by
  rw [passwordDue, h]

/-- **A vault with its password seals every byte string** under the vector it draws. -/
theorem exists_encrypt (data : Bytes) :
    ∃ payload, Vault.Sealed vault.kdf password (Iv.draw vault.random).1.bytes data payload ∧
      vault.encrypt data =
        .ok (payload, { vault with random := (Iv.draw vault.random).2 }) := by
  have hiv : (Iv.draw vault.random).1.bytes.length = 16 := (Iv.draw vault.random).1.length_bytes
  obtain ⟨payload, key, ciphertext, hkey, hcipher, rfl⟩ :=
    Vault.Sealed.exists_payload password vault.keyLength_mem hiv data
  refine ⟨_, ⟨key, ciphertext, hkey, hcipher, rfl⟩, ?_⟩
  simp only [encrypt, passwordDue_of_some h, hkey, hcipher, bind, Except.bind]
  rfl

theorem decrypt_of_vector {payload : Bytes} {iv : Iv} {key : DerivedKey}
    (hiv : Iv.ofPrefix? payload = some iv)
    (hkey : vault.kdf.deriveKey password.bytes iv.bytes = .ok key) :
    vault.decrypt payload = Cipher.decrypt key.bytes iv.bytes (payload.drop blockLength) := by
  simp only [decrypt, passwordDue_of_some h, hiv, hkey, bind, Except.bind]

theorem decrypt_of_short {payload : Bytes} (hiv : Iv.ofPrefix? payload = none) :
    vault.decrypt payload = .error .decryptionFailed := by
  simp only [decrypt, passwordDue_of_some h, hiv, bind, Except.bind]

/-- **A vault with its password reads what is sealed under it**, and nothing else. -/
theorem decrypt_eq_ok_iff {payload data : Bytes} :
    vault.decrypt payload = .ok data ↔
      ∃ iv, iv.length = blockLength ∧ Vault.Sealed vault.kdf password iv data payload := by
  constructor
  · intro hdec
    cases hiv : Iv.ofPrefix? payload with
    | none =>
      rw [decrypt_of_short h hiv] at hdec
      cases hdec
    | some iv =>
      obtain ⟨key, hkey, hlen⟩ := vault.kdf.exists_deriveKey password.bytes iv.bytes
      rw [decrypt_of_vector h hiv hkey] at hdec
      obtain ⟨keys, start, hset⟩ := Cipher.exists_setUp (hlen ▸ vault.keyLength_mem) iv.length_bytes
      have hcipher := (Cipher.decrypt_eq_ok_iff hset).mp hdec
      exact ⟨iv.bytes, iv.length_bytes, key, _, hkey, hcipher, Iv.eq_append_of_ofPrefix? hiv⟩
  · rintro ⟨iv, hiv, key, ciphertext, hkey, hcipher, rfl⟩
    have hlen := Kdf.length_of_deriveKey hkey
    obtain ⟨keys, start, hset⟩ := Cipher.exists_setUp (hlen ▸ vault.keyLength_mem) hiv
    rw [decrypt_of_vector h (Iv.ofPrefix?_append hiv ciphertext) hkey, ← hiv, List.drop_left]
    exact (Cipher.decrypt_eq_ok_iff hset).mpr hcipher

/-- A vault with its password refuses in one way only. -/
theorem decrypt_eq_ok_or_failed (payload : Bytes) :
    (∃ data, vault.decrypt payload = .ok data) ∨
      vault.decrypt payload = .error .decryptionFailed := by
  cases hiv : Iv.ofPrefix? payload with
  | none => exact .inr (decrypt_of_short h hiv)
  | some iv =>
    obtain ⟨key, hkey, hlen⟩ := vault.kdf.exists_deriveKey password.bytes iv.bytes
    rw [decrypt_of_vector h hiv hkey]
    obtain ⟨keys, start, hset⟩ := Cipher.exists_setUp (hlen ▸ vault.keyLength_mem) iv.length_bytes
    exact Cipher.decrypt_eq_ok_or_failed hset _

theorem error_of_decrypt {payload : Bytes} {error : Error}
    (herror : vault.decrypt payload = .error error) : error = .decryptionFailed := by
  rcases decrypt_eq_ok_or_failed h payload with ⟨data, hdata⟩ | hfailed
  · rw [hdata] at herror
    cases herror
  · exact (Except.error.inj (hfailed.symm.trans herror)).symm

end Open

end AesVault

end Strongbox
