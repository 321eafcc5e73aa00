import Strongbox.Proofs.Derivation.Runnable
import Strongbox.Proofs.Vault.Run

/-!
# Payloads read back across vaults

A payload carries its vector, so that any vault with the same derivation and the same password
reads it, whatever either vault was asked before.

## Main results

* `AesVault.decrypt_encrypt`: what one vault seals another opens
* `Vault.round_trip`: payloads read back between any two runs
-/

namespace Strongbox

open Strongbox.Derivation (Spec)
open Vault (perform)

namespace AesVault

variable {a b : AesVault} {password : Password}

/-- **What one vault seals another opens**, if both have the same derivation and the same password.
The sources and the codecs do not matter. -/
theorem decrypt_encrypt (ha : a.password = some password) (hb : b.password = some password)
    (hkdf : a.kdf = b.kdf) (data : Bytes) :
    ∃ payload next, a.encrypt data = .ok (payload, next) ∧
      payload.length = 16 + 16 * (data.length / 16 + 1) ∧ b.decrypt payload = .ok data := by
  obtain ⟨payload, hsealed, hencrypt⟩ := exists_encrypt ha data
  have hiv := (Iv.draw a.random).1.length_bytes
  refine ⟨payload, _, hencrypt, hsealed.length_payload hiv, ?_⟩
  exact (decrypt_eq_ok_iff hb).mpr ⟨_, hiv, hkdf ▸ hsealed⟩

end AesVault

namespace Vault

/-- A vault that leaves everything as it is stays as it is. -/
theorem stateAfter_plain (codec : Codec) (calls : List Call) :
    Run.stateAfter perform (.plain codec) calls = .plain codec := by
  refine Run.stateAfter_induction perform (.plain codec)
    (P := fun _ state => state = .plain codec) rfl ?_ calls
  rintro - _ call rfl
  cases call <;> rfl

/-- What reads back as a payload reads back as a text. -/
theorem decryptEncoded_encryptEncoded {v w next : Vault} {data payload : Bytes}
    (hcodec : v.codec = w.codec) (hencrypt : v.encrypt data = .ok (payload, next))
    (hdecrypt : w.decrypt payload = .ok data) :
    ∃ text, v.encryptEncoded data = .ok (text, next) ∧ w.decryptEncoded text = .ok data := by
  refine ⟨v.codec.encode payload, ?_, ?_⟩
  · rw [encryptEncoded, hencrypt]
    rfl
  · rw [decryptEncoded, hcodec, Codec.decode_encode]
    exact hdecrypt

/-- A vault that a run leaves open still has its password. -/
theorem password_after {vault : AesVault} {password : Password}
    (h : vault.password = some password) {calls : List Call}
    (hlive : (Run.stateAfter perform (.aes vault) calls).isDestroyed = false) :
    (vault.after calls).password = some password := by
  rw [stateAfter_aes h, Vault.isDestroyed, AesVault.isDestroyed] at hlive
  by_cases hclose : Call.close ∈ calls
  · rw [AesVault.after, if_pos hclose] at hlive
    cases hlive
  · exact (if_neg hclose).trans h

/-- Two encrypting vaults that were not closed read what the other one seals. -/
theorem aes_round_trip {kdf : Kdf} {password : Password} {codecA codecB : Codec}
    {randomA randomB : Random} {a b : AesVault}
    (hopenA : AesVault.open kdf password codecA randomA = .ok a)
    (hopenB : AesVault.open kdf password codecB randomB = .ok b) {callsA callsB : List Call}
    (hliveA : (Run.stateAfter perform (.aes a) callsA).isDestroyed = false)
    (hliveB : (Run.stateAfter perform (.aes b) callsB).isDestroyed = false) (data : Bytes) :
    let A := Run.stateAfter perform (.aes a) callsA
    let B := Run.stateAfter perform (.aes b) callsB
    (∃ payload next, A.encrypt data = .ok (payload, next) ∧
      payload.length = 16 + 16 * (data.length / 16 + 1) ∧ B.decrypt payload = .ok data) ∧
    (codecA = codecB → ∃ text next, A.encryptEncoded data = .ok (text, next) ∧
      B.decryptEncoded text = .ok data) := by
  intro A B
  obtain ⟨hkdfA, rfl, -, hpasswordA⟩ := AesVault.eq_of_open hopenA
  obtain ⟨hkdfB, rfl, -, hpasswordB⟩ := AesVault.eq_of_open hopenB
  have hA : A = .aes (a.after callsA) := stateAfter_aes hpasswordA callsA
  have hB : B = .aes (b.after callsB) := stateAfter_aes hpasswordB callsB
  -- what was drawn differs between the two, but neither the derivation nor the password does
  obtain ⟨payload, next, hencrypt, hlength, hdecrypt⟩ :=
    AesVault.decrypt_encrypt (password_after hpasswordA hliveA) (password_after hpasswordB hliveB)
      (hkdfA.trans hkdfB.symm) data
  have hencryptA : A.encrypt data = .ok (payload, .aes next) := by
    rw [hA, Vault.encrypt, hencrypt]
    rfl
  have hdecryptB : B.decrypt payload = .ok data := by
    rw [hB]
    exact hdecrypt
  refine ⟨⟨payload, _, hencryptA, hlength, hdecryptB⟩, fun hcodec => ?_⟩
  have hcodecAB : A.codec = B.codec := by
    rw [hA, hB]
    exact hcodec
  obtain ⟨text, htext, hread⟩ := decryptEncoded_encryptEncoded hcodecAB hencryptA hdecryptB
  exact ⟨text, _, htext, hread⟩

/-- A vault that leaves everything as it is reads what it wrote, whatever it was asked. -/
theorem plain_round_trip (codec : Codec) (callsA callsB : List Call) (data : Bytes) :
    let A := Run.stateAfter perform (.plain codec) callsA
    let B := Run.stateAfter perform (.plain codec) callsB
    (∃ payload next, A.encrypt data = .ok (payload, next) ∧ B.decrypt payload = .ok data) ∧
    ∃ text next, A.encryptEncoded data = .ok (text, next) ∧ B.decryptEncoded text = .ok data := by
  intro A B
  have hA : A = .plain codec := stateAfter_plain codec callsA
  have hB : B = .plain codec := stateAfter_plain codec callsB
  have hencrypt : A.encrypt data = .ok (data, .plain codec) := by rw [hA, Vault.encrypt]
  have hdecrypt : B.decrypt data = .ok data := by rw [hB, Vault.decrypt]
  have hcodec : A.codec = B.codec := by rw [hA, hB]
  obtain ⟨text, htext, hread⟩ := decryptEncoded_encryptEncoded hcodec hencrypt hdecrypt
  exact ⟨⟨data, _, hencrypt, hdecrypt⟩, text, _, htext, hread⟩

/-- **Payloads read back between any two runs.** Two vaults that are opened with one spec and one
password seal and open for each other, however long each was asked other things, as long as
neither was closed; and a text reads back if their codecs are one. A vault that leaves everything
as it is does that for good, however often it is closed. -/
theorem round_trip :
    (∀ (spec : Spec) (kdf : Kdf) (password : Password), spec.kdf = .ok kdf →
      spec.keyLength.val ∈ [16, 24, 32] → password.isEmpty = false →
      ∀ (codecA codecB : Codec) (randomA randomB : Random),
      ∃ a b, AesVault.open kdf password codecA randomA = .ok a ∧
        AesVault.open kdf password codecB randomB = .ok b ∧
        ∀ (callsA callsB : List Call) (data : Bytes),
          let A := Run.stateAfter perform (.aes a) callsA
          let B := Run.stateAfter perform (.aes b) callsB
          A.isDestroyed = false → B.isDestroyed = false →
            (∃ payload next, A.encrypt data = .ok (payload, next) ∧
              payload.length = 16 + 16 * (data.length / 16 + 1) ∧
              B.decrypt payload = .ok data) ∧
            (codecA = codecB → ∃ text next, A.encryptEncoded data = .ok (text, next) ∧
              B.decryptEncoded text = .ok data)) ∧
    ∀ (codec : Codec) (callsA callsB : List Call) (data : Bytes),
      let A := Run.stateAfter perform (.plain codec) callsA
      let B := Run.stateAfter perform (.plain codec) callsB
      (∃ payload next, A.encrypt data = .ok (payload, next) ∧ B.decrypt payload = .ok data) ∧
      ∃ text next, A.encryptEncoded data = .ok (text, next) ∧
        B.decryptEncoded text = .ok data := by
  refine ⟨?_, plain_round_trip⟩
  intro spec kdf password hkdf hlen hpassword codecA codecB randomA randomB
  obtain rfl := Spec.spec_of_kdf hkdf
  obtain ⟨a, hopenA⟩ := AesVault.exists_open hpassword hlen codecA randomA
  obtain ⟨b, hopenB⟩ := AesVault.exists_open hpassword hlen codecB randomB
  refine ⟨a, b, hopenA, hopenB, ?_⟩
  intro callsA callsB data A B hliveA hliveB
  exact aes_round_trip hopenA hopenB hliveA hliveB data

/-- A payload of two letters made after another one, and read by a vault with another codec that
refused something before. -/
theorem round_trip_of_two_letters :
    let spec : Spec := .legacy .md5 ⟨16, by decide, by decide⟩
    let password : Password := ⟨[112]⟩
    ∃ kdf a b, spec.kdf = .ok kdf ∧
      AesVault.open kdf password .hex (.ofStream UInt8.ofNat) = .ok a ∧
      AesVault.open kdf password .base64 (.ofStream fun _ => 7) = .ok b ∧
      ∃ payload next, encrypt (Run.stateAfter perform (.aes a) [.encrypt [], .isDestroyed])
          [104, 105] = .ok (payload, next) ∧
        payload.length = 32 ∧
        decrypt (Run.stateAfter perform (.aes b) [.decrypt [1]]) payload = .ok [104, 105] := by
  intro spec password
  let kdf : Kdf := ⟨spec, rfl⟩
  obtain ⟨a, b, hopenA, hopenB, hruns⟩ :=
    round_trip.1 spec kdf password rfl (by decide) rfl .hex .base64 (.ofStream UInt8.ofNat)
      (.ofStream fun _ => 7)
  obtain ⟨-, -, -, hpasswordA⟩ := AesVault.eq_of_open hopenA
  obtain ⟨-, -, -, hpasswordB⟩ := AesVault.eq_of_open hopenB
  have hliveA : Vault.isDestroyed
      (Run.stateAfter perform (.aes a) [.encrypt [], .isDestroyed]) = false := by
    rw [stateAfter_aes hpasswordA]
    show a.password.isNone = false
    rw [hpasswordA, Option.isNone_some]
  have hliveB : Vault.isDestroyed (Run.stateAfter perform (.aes b) [.decrypt [1]]) = false := by
    rw [stateAfter_aes hpasswordB]
    show b.password.isNone = false
    rw [hpasswordB, Option.isNone_some]
  obtain ⟨⟨payload, next, hencrypt, hlength, hdecrypt⟩, -⟩ :=
    hruns [.encrypt [], .isDestroyed] [.decrypt [1]] [104, 105] hliveA hliveB
  exact ⟨kdf, a, b, rfl, hopenA, hopenB, payload, next, hencrypt, hlength, hdecrypt⟩

end Vault

end Strongbox
