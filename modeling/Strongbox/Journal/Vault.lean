import Strongbox.Journal.Derivation
import Strongbox.Vault.Draft
/-!
# Journals of vaults

Building, using and closing a vault, with what goes into the journal.

## Main definitions

* `Journal.applySetting`, `Journal.draftOfConfig`: drafts
* `Journal.buildVault`: a vault is noted once it is open
* `Journal.encrypt`, `Journal.decrypt` and their encoded forms: derivations are noted
* `Journal.close`: closing is noted, the first time

## Main results

* `Journal.outcome_buildVault` and the like: what these runs give
-/

namespace Strongbox.Journal

open Vault (Config Draft Setting)

/-- Sets what a setting says in the draft of a vault. -/
def applySetting (draft : Draft) : Setting → Journal Error Draft
  | .properties properties => do
    let spec ← specOfProperties properties
    lift (draft.setSpec spec)
  | setting => lift (draft.apply setting)

/-- The draft of a configuration. -/
def draftOfConfig (config : Config) : Journal Error Draft := do
  let draft : Draft := { kind := ← lift config.parsedKind, codec := config.codec }
  match draft.kind, config.kdf with
  | .plain, _ => return draft
  | .aes, some properties => applySetting draft (.properties properties)
  | .aes, none => lift (.error (.missingParameter "kdf"))

/-- A vault was opened. -/
def vaultOpened : Vault → Event
  | .plain _ => { level := .debug, message := "Encryption disabled, using no-op vault" }
  | .aes vault =>
    { level := .debug
      message := "Opened AES vault"
      fields := [("function", vault.kdf.spec.function.name),
        ("key_size", vault.keySize.describe), ("codec", vault.codec.name)] }

/-- An encrypting vault was closed. -/
def vaultClosed : Event := { level := .debug, message := "Closed AES vault" }

/-- The vault of a draft. -/
def buildVault (fallback : Random) (draft : Draft) : Journal Error Vault := do
  let vault ← lift (draft.build fallback)
  note (vaultOpened vault)
  return vault

/-- The derivation of the key for the vector in front of a payload, if it comes to that. -/
def payloadEvents (vault : Vault) (payload : Bytes) : List Event :=
  match vault, Iv.ofPrefix? payload with
  | .aes vault, some iv =>
    if vault.isDestroyed then [] else [keyDerived vault.kdf iv.bytes vault.kdf.keyLength]
  | _, _ => []

/-- The payload of a byte string, and the vault after that. -/
def encrypt (vault : Vault) (data : Bytes) : Journal Error (Bytes × Vault) :=
  let outcome := vault.encrypt data
  ⟨match outcome with | .ok (payload, _) => payloadEvents vault payload | .error _ => [], outcome⟩

/-- The byte string of a payload. -/
def decrypt (vault : Vault) (payload : Bytes) : Journal Error Bytes :=
  ⟨payloadEvents vault payload, vault.decrypt payload⟩

/-- The payload of a byte string as a text, and the vault after that. -/
def encryptEncoded (vault : Vault) (data : Bytes) : Journal Error (String × Vault) := do
  let (payload, next) ← encrypt vault data
  return (vault.codec.encode payload, next)

/-- The byte string of a payload that is given as a text. -/
def decryptEncoded (vault : Vault) (text : String) : Journal Error Bytes := do
  let payload ← lift (vault.codec.decode text)
  decrypt vault payload

/-- Closes a vault, for good. -/
def close {ε : Type} (vault : Vault) : Journal ε Vault :=
  let events := match vault with
    | .aes vault => if vault.isDestroyed then [] else [vaultClosed]
    | .plain _ => []
  ⟨events, .ok vault.close⟩

@[simp] theorem outcome_applySetting (draft : Draft) (setting : Setting) :
    (applySetting draft setting).outcome = draft.apply setting := by
  cases setting <;> simp [applySetting, Draft.apply, Draft.setProperties]

@[simp] theorem outcome_draftOfConfig (config : Config) :
    (draftOfConfig config).outcome = Draft.ofConfig config := by
  simp only [draftOfConfig, Draft.ofConfig, outcome_bind, outcome_lift]
  congr 1
  funext kind
  cases kind <;> cases config.kdf <;> simp [Draft.apply] <;> rfl

@[simp] theorem outcome_buildVault (fallback : Random) (draft : Draft) :
    (buildVault fallback draft).outcome = draft.build fallback := by
  cases h : draft.build fallback <;> simp [buildVault, h, bind, note]

@[simp] theorem outcome_encrypt (vault : Vault) (data : Bytes) :
    (encrypt vault data).outcome = vault.encrypt data := rfl

@[simp] theorem outcome_decrypt (vault : Vault) (payload : Bytes) :
    (decrypt vault payload).outcome = vault.decrypt payload := rfl

@[simp] theorem outcome_encryptEncoded (vault : Vault) (data : Bytes) :
    (encryptEncoded vault data).outcome = vault.encryptEncoded data := by
  simp only [encryptEncoded, Vault.encryptEncoded, outcome_bind, outcome_encrypt]
  rfl

@[simp] theorem outcome_decryptEncoded (vault : Vault) (text : String) :
    (decryptEncoded vault text).outcome = vault.decryptEncoded text := by
  simp [decryptEncoded, Vault.decryptEncoded]

@[simp] theorem outcome_close {ε : Type} (vault : Vault) :
    (close vault : Journal ε Vault).outcome = .ok vault.close := rfl

end Strongbox.Journal
