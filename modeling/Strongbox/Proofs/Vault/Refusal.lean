import Strongbox.Proofs.Vault.Draft

/-!
# Vaults that are refused

A configuration makes no vault if it is of no kind, or if it is to encrypt and does not say how keys
are derived, or in no way that can run; nor does it with an empty password, or if the keys that are
derived are no AES keys. A vault that is open encrypts whatever it is given, and decrypts a payload
or says that it does not.

## Main definitions

* `Config.Derives`: the derivation that a configuration of an encrypting vault has

## Main results

* `AesVault.open_eq_error_iff`: what an encrypting vault is refused for
* `Draft.ofConfig_eq_error_iff`, `Draft.ofConfig_eq_ok_iff`: which configurations have a draft
* `Draft.build_eq_error_iff`: which drafts of configurations are refused with a password
* `Vault.exists_encryptEncoded`, `Vault.error_of_decrypt`: what an open vault can fail at
-/

namespace Strongbox

open Strongbox.Derivation (Properties Spec)
open Vault (Config)

/-! ## Opening -/

theorem AesVault.open_eq_error_iff {kdf : Kdf} {password : Password} {codec : Codec}
    {random : Random} {error : Error} :
    AesVault.open kdf password codec random = .error error ↔
      (password.isEmpty = true ∧ error = .invalidInput .emptyPassword) ∨
      (password.isEmpty = false ∧ kdf.keyLength ∉ [16, 24, 32] ∧
        error = .invalidInput (.keyLength kdf.keyLength)) := by
  cases hempty : password.isEmpty with
  | true =>
    rw [open_of_isEmpty hempty]
    simp [eq_comm]
  | false =>
    by_cases hlen : kdf.keyLength ∈ [16, 24, 32]
    · obtain ⟨vault, hvault⟩ := exists_open hempty hlen codec random
      rw [hvault]
      simp [hlen]
    · rw [open_of_keyLength hempty hlen]
      simp [hlen, eq_comm]

/-! ## Vaults that are open -/

theorem AesVault.exists_password {vault : AesVault} (h : vault.isDestroyed = false) :
    ∃ password, vault.password = some password := by
  rw [isDestroyed, Option.isNone_eq_false_iff] at h
  exact Option.isSome_iff_exists.mp h

namespace Vault

/-- A vault that is open encrypts everything. -/
theorem exists_encryptEncoded {vault : Vault} (h : vault.isDestroyed = false) (data : Bytes) :
    ∃ result, vault.encryptEncoded data = .ok result := by
  cases vault with
  | plain codec => exact ⟨_, rfl⟩
  | aes vault =>
    obtain ⟨password, hpassword⟩ := AesVault.exists_password h
    obtain ⟨payload, -, hencrypt⟩ := AesVault.exists_encrypt hpassword data
    rw [encryptEncoded, encrypt, hencrypt]
    exact ⟨_, rfl⟩

/-- Of a payload that it cannot decrypt it tells no more than that. -/
theorem error_of_decrypt {vault : Vault} (h : vault.isDestroyed = false) {payload : Bytes}
    {error : Error} (herror : vault.decrypt payload = .error error) :
    error = .decryptionFailed := by
  cases vault with
  | plain codec => cases herror
  | aes vault =>
    obtain ⟨password, hpassword⟩ := AesVault.exists_password h
    exact AesVault.error_of_decrypt hpassword herror

/-! ## Configurations -/

/-- The derivation that a configuration of an encrypting vault has. -/
def Config.Derives (config : Config) (kdf : Kdf) : Prop :=
  config.parsedKind = .ok .aes ∧
    ∃ p, config.kdf = some p ∧ (Spec.ofProperties p >>= Spec.kdf) = .ok kdf

namespace Draft

variable {draft : Draft} {config : Config} {p : Properties} {error : Error}

theorem setProperties_eq_error_iff :
    draft.setProperties p = .error error ↔ (Spec.ofProperties p >>= Spec.kdf) = .error error := by
  simp only [setProperties, setSpec, bind_eq_error_iff]
  simp [pure, Except.pure]

/-- A configuration has no draft if it is of no kind, or of an encrypting vault without a derivation
that can run. -/
theorem ofConfig_eq_error_iff : ofConfig config = .error error ↔
    config.parsedKind = .error error ∨
    (config.parsedKind = .ok .aes ∧ config.kdf = none ∧ error = .missingParameter "kdf") ∨
    (config.parsedKind = .ok .aes ∧
      ∃ p, config.kdf = some p ∧ (Spec.ofProperties p >>= Spec.kdf) = .error error) := by
  rw [ofConfig, bind_eq_error_iff]
  refine or_congr_right ?_
  cases hkind : config.parsedKind with
  | error _ => simp
  | ok kind =>
    cases kind with
    | plain => simp [pure, Except.pure]
    | aes =>
      cases hkdf : config.kdf with
      | none => simp [eq_comm]
      | some p => simp [setProperties_eq_error_iff]

/-- A draft is of the kind its configuration names, and has the derivation if it is to encrypt. -/
theorem ofConfig_eq_ok_iff : ofConfig config = .ok draft ↔
    (config.parsedKind = .ok .plain ∧ draft = { kind := .plain, codec := config.codec }) ∨
    ∃ kdf, config.Derives kdf ∧
      draft = { kind := .aes, kdf := some kdf, codec := config.codec } := by
  simp only [ofConfig, bind_eq_ok_iff, Config.Derives]
  cases hkind : config.parsedKind with
  | error _ => simp
  | ok kind =>
    cases kind with
    | plain => simp [pure, Except.pure, eq_comm]
    | aes =>
      cases hkdf : config.kdf with
      | none => simp
      | some p =>
        simp only [setProperties_eq_ok_iff, Except.ok.injEq, Option.some.injEq, exists_eq_left',
          reduceCtorEq, false_and, false_or, true_and]
        constructor
        · rintro ⟨spec, kdf, hspec, hrunnable, rfl⟩
          exact ⟨kdf, ⟨spec, hspec, hrunnable⟩, rfl⟩
        · rintro ⟨kdf, ⟨spec, hspec, hrunnable⟩, rfl⟩
          exact ⟨spec, kdf, hspec, hrunnable, rfl⟩

/-- A draft of a configuration that was given a password is refused for the password or for the
length of its keys. -/
theorem build_eq_error_iff {password : Password} {random : Random}
    (hdraft : ofConfig config = .ok draft) :
    build random { draft with password := some password } = .error error ↔
      ∃ kdf, config.Derives kdf ∧
        AesVault.open kdf password config.codec random = .error error := by
  rcases ofConfig_eq_ok_iff.mp hdraft with ⟨hkind, rfl⟩ | ⟨kdf, hkdf, rfl⟩
  · rw [build_of_plain rfl]
    refine iff_of_false nofun ?_
    rintro ⟨kdf, ⟨haes, -⟩, -⟩
    cases hkind.symm.trans haes
  · rw [build_of_some rfl rfl rfl, map_eq_error_iff]
    constructor
    · intro h
      exact ⟨kdf, hkdf, h⟩
    · rintro ⟨kdf', ⟨-, p, hp, hkdf'⟩, h⟩
      obtain ⟨-, p', hp', hkdf⟩ := hkdf
      cases hp'.symm.trans hp
      cases hkdf.symm.trans hkdf'
      exact h

end Draft

end Vault

end Strongbox
