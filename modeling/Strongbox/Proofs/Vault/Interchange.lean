import Strongbox.Proofs.Derivation.Pbkdf2
import Strongbox.Proofs.Derivation.Runnable
import Strongbox.Proofs.Vault.Basic

/-!
# Passwords that are one

The functions that work by keyed digests take the password for a key, and nothing of it goes into
them but the key. So passwords that are interchangeable as keys make the same keys of every salt,
and vaults that have them read each other's payloads. A password is never told from the one with
zeros behind it, as long as that fits into a block, nor one that is longer than a block from its
digest.

## Main results

* `Pbkdf2.fill_congr`, `Scrypt.fill_congr`: the same key material
* `Kdf.deriveKey_congr`: the same keys
* `AesVault.decrypt_congr`: the same payloads read
* `Vault.interchangeable_passwords`: interchangeable passwords open the same payloads
-/

namespace Strongbox

open Strongbox.Derivation (Positive Spec)
open Strongbox.Hmac (Interchangeable)

/-! ## Key material -/

section

variable {password password' : Bytes} (salt : Bytes) (length : Nat)

/-- All that iterated digests know of a password is the key prepared of it. -/
theorem Pbkdf2.fill_congr {digest : Digest} (h : Interchangeable digest password password')
    (iterations : Nat) :
    fill digest iterations password salt length = fill digest iterations password' salt length := by
  rw [fill, fill, h.prepare_eq]

/-- The lanes are the same, and so is what is made of them after they are mixed. -/
theorem Scrypt.fill_congr (h : Interchangeable .sha256 password password')
    (cost blockSize parallelization : Nat) :
    fill cost blockSize parallelization password salt length =
      fill cost blockSize parallelization password' salt length := by
  simp only [fill, Pbkdf2.fill_congr _ _ h]

end

namespace Kdf

variable {kdf : Kdf}

/-- Memory-hard mixing runs with one digest only. -/
theorem digest_of_memoryHard (h : kdf.spec.function = .memoryHard) :
    kdf.spec.digest = .sha256 := by
  have hruns := kdf.runs
  cases hspec : kdf.spec with
  | legacy => rw [hspec] at h; cases h
  | iteratedDigest => rw [hspec] at h; cases h
  | memoryHard digest keyLength iterations blockSize parallelization =>
    rw [hspec] at hruns
    exact (Spec.obstacle?_memoryHard.mp hruns).1

/-- **Interchangeable passwords make the same keys**, but with chained digests, which are not
keyed. -/
theorem deriveKey_congr {password password' : Bytes} (hfunction : kdf.spec.function ≠ .legacy)
    (h : Interchangeable kdf.spec.digest password password') (salt : Bytes) :
    kdf.deriveKey password salt = kdf.deriveKey password' salt := by
  have hfill (length : Nat) : kdf.fill password salt length = kdf.fill password' salt length := by
    have hdigest := kdf.digest_of_memoryHard
    unfold fill
    cases hspec : kdf.spec with
    | legacy =>
      rw [hspec] at hfunction
      exact absurd rfl hfunction
    | iteratedDigest digest _ iterations =>
      rw [hspec] at h
      exact congrArg Except.ok (Pbkdf2.fill_congr salt length h iterations.val)
    | memoryHard digest _ iterations blockSize parallelization =>
      rw [hspec] at h hdigest
      rw [hdigest rfl] at h
      simp only [Scrypt.fill_congr salt length h]
  rw [deriveKey, deriveKey, hfill]

end Kdf

/-! ## Vaults -/

namespace AesVault

variable {a b : AesVault} {password password' : Password}

/-- A vault reads a payload with nothing but the key of its vector. -/
theorem decrypt_congr (ha : a.password = some password) (hb : b.password = some password')
    (h : ∀ salt, a.kdf.deriveKey password.bytes salt = b.kdf.deriveKey password'.bytes salt)
    (payload : Bytes) : a.decrypt payload = b.decrypt payload := by
  cases hiv : Iv.ofPrefix? payload with
  | none => rw [decrypt_of_short ha hiv, decrypt_of_short hb hiv]
  | some iv =>
    obtain ⟨key, hkey, -⟩ := a.kdf.exists_deriveKey password.bytes iv.bytes
    rw [decrypt_of_vector ha hiv hkey, decrypt_of_vector hb hiv (h iv.bytes ▸ hkey)]

/-- What one vault seals another opens, if both make the same keys. -/
theorem decrypt_encrypt_of_congr (ha : a.password = some password)
    (h : ∀ payload, a.decrypt payload = b.decrypt payload) (data : Bytes) :
    ∃ payload next, a.encrypt data = .ok (payload, next) ∧ b.decrypt payload = .ok data := by
  obtain ⟨payload, hsealed, hencrypt⟩ := exists_encrypt ha data
  have hdecrypt := (decrypt_eq_ok_iff ha).mpr ⟨_, (Iv.draw a.random).1.length_bytes, hsealed⟩
  exact ⟨payload, _, hencrypt, h payload ▸ hdecrypt⟩

end AesVault

namespace Vault

/-- **Interchangeable passwords open the same payloads.** Blocks have 64 or 128 bytes, depending on
the digest. Every spec of iterated digests can run, and those of memory-hard mixing that can have
one digest. Of two passwords that are one as keys under the digest of the derivation, every salt
gives one key; and two vaults with this derivation, one with each of the passwords, read each
other's payloads, whatever the plaintext is and under every vector. -/
theorem interchangeable_passwords :
    (∀ digest : Digest, digest.blockLength =
      if digest = .sha384 ∨ digest = .sha512 then 128 else 64) ∧
    (∀ digest keyLength iterations,
      ∃ kdf, (Spec.iteratedDigest digest keyLength iterations).kdf = .ok kdf) ∧
    (∀ kdf : Kdf, kdf.spec.function = .memoryHard → kdf.spec.digest = .sha256) ∧
    ∀ (kdf : Kdf) (password password' : Bytes), kdf.spec.function ≠ .legacy →
      Interchangeable kdf.spec.digest password password' →
      (∀ salt, ∃ key, kdf.deriveKey password salt = .ok key ∧
        kdf.deriveKey password' salt = .ok key) ∧
      ∀ a b : AesVault, a.kdf = kdf → b.kdf = kdf → a.password = some ⟨password⟩ →
        b.password = some ⟨password'⟩ →
        (∀ payload, a.decrypt payload = b.decrypt payload) ∧
        (∀ iv data payload, iv.length = blockLength →
          Sealed kdf ⟨password⟩ iv data payload ∨ Sealed kdf ⟨password'⟩ iv data payload →
          a.decrypt payload = .ok data ∧ b.decrypt payload = .ok data) ∧
        ∀ data,
          (∃ payload next, a.encrypt data = .ok (payload, next) ∧ b.decrypt payload = .ok data) ∧
          ∃ payload next, b.encrypt data = .ok (payload, next) ∧ a.decrypt payload = .ok data := by
  refine ⟨fun digest => by cases digest <;> rfl, fun _ _ _ => ⟨_, rfl⟩,
    fun _ => Kdf.digest_of_memoryHard, ?_⟩
  intro kdf password password' hfunction h
  have hkeys := kdf.deriveKey_congr hfunction h
  refine ⟨fun salt => ?_, ?_⟩
  · obtain ⟨key, hkey, -⟩ := kdf.exists_deriveKey password salt
    exact ⟨key, hkey, hkeys salt ▸ hkey⟩
  intro a b hkdfA hkdfB ha hb
  have hreads := AesVault.decrypt_congr ha hb (by rw [hkdfA, hkdfB]; exact hkeys)
  refine ⟨hreads, ?_, fun data => ⟨?_, ?_⟩⟩
  · intro iv data payload hiv hsealed
    -- whichever of the two passwords it was sealed under, one of the vaults reads it
    have hread : a.decrypt payload = .ok data := by
      rcases hsealed with hsealed | hsealed
      · exact (AesVault.decrypt_eq_ok_iff ha).mpr ⟨iv, hiv, hkdfA ▸ hsealed⟩
      · rw [hreads]
        exact (AesVault.decrypt_eq_ok_iff hb).mpr ⟨iv, hiv, hkdfB ▸ hsealed⟩
    exact ⟨hread, hreads payload ▸ hread⟩
  · exact AesVault.decrypt_encrypt_of_congr ha hreads data
  · exact AesVault.decrypt_encrypt_of_congr hb (fun payload => (hreads payload).symm) data

/-- Two vaults whose passwords differ by two zeros, and a password one byte longer than a block with
its digest. -/
theorem interchangeable_passwords_of_samples :
    let short : Bytes := [112]
    let long : Bytes := List.replicate 65 112
    let iterated : Kdf := ⟨.iteratedDigest .sha512 ⟨24, by decide, by decide⟩
      ⟨3, by decide, by decide⟩, rfl⟩
    let mixed : Kdf := ⟨.memoryHard .sha256 ⟨70, by decide, by decide⟩ ⟨16, by decide, by decide⟩
      ⟨1, by decide, by decide⟩ ⟨2, by decide, by decide⟩, rfl⟩
    Interchangeable iterated.spec.digest short [112, 0, 0] ∧
      (∃ a b, AesVault.open iterated ⟨short⟩ .hex (.ofStream fun _ => 7) = .ok a ∧
        AesVault.open iterated ⟨[112, 0, 0]⟩ .base64 (.ofStream UInt8.ofNat) = .ok b ∧
        ∃ payload next, a.encrypt [104, 105] = .ok (payload, next) ∧
          b.decrypt payload = .ok [104, 105]) ∧
      Interchangeable mixed.spec.digest long (Digest.sha256.hash long) ∧
      ∃ key, mixed.deriveKey long [1] = .ok key ∧
        mixed.deriveKey (Digest.sha256.hash long) [1] = .ok key := by
  intro short long iterated mixed
  have hshort : Interchangeable iterated.spec.digest short [112, 0, 0] :=
    @Interchangeable.zeros .sha512 short 2 (by decide)
  have hlong : Interchangeable mixed.spec.digest long (Digest.sha256.hash long) :=
    @Interchangeable.digest .sha256 long (by decide)
  obtain ⟨-, -, -, hall⟩ := interchangeable_passwords
  have hlen : iterated.keyLength ∈ [16, 24, 32] := by decide
  have hpasswordA : Password.isEmpty ⟨short⟩ = false := rfl
  have hpasswordB : Password.isEmpty ⟨[112, 0, 0]⟩ = false := rfl
  obtain ⟨a, hopenA⟩ := AesVault.exists_open hpasswordA hlen .hex (.ofStream fun _ => 7)
  obtain ⟨b, hopenB⟩ := AesVault.exists_open hpasswordB hlen .base64 (.ofStream UInt8.ofNat)
  obtain ⟨hkdfA, -, -, ha⟩ := AesVault.eq_of_open hopenA
  obtain ⟨hkdfB, -, -, hb⟩ := AesVault.eq_of_open hopenB
  obtain ⟨-, hvaults⟩ := hall iterated short [112, 0, 0] (by decide) hshort
  obtain ⟨-, -, hreads⟩ := hvaults a b hkdfA hkdfB ha hb
  obtain ⟨hkeys, -⟩ := hall mixed long _ (by decide) hlong
  exact ⟨hshort, ⟨a, b, hopenA, hopenB, (hreads [104, 105]).1⟩, hlong, hkeys [1]⟩

end Vault

end Strongbox
