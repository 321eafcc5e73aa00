import Strongbox.Cipher
import Strongbox.Codec
import Strongbox.Derivation.Kdf
import Strongbox.Vault.Kind
/-!
# Vaults

A vault encrypts and decrypts byte strings. An encrypting vault draws an initialization vector for
each payload, derives the key from the password with that vector as salt, and puts the vector in
front of the ciphertext. Once it is closed its password is gone, and it does nothing any more. The
other kind of vault leaves everything as it is and has nothing to close.

## Main definitions

* `AesVault`: an encrypting vault, `AesVault.encrypt`, `AesVault.decrypt`, `AesVault.close`
* `Vault`: a vault of either kind, `Vault.passThrough`: one that leaves everything as it is
* `Vault.encrypt`, `Vault.decrypt`: payloads as bytes
* `Vault.encryptEncoded`, `Vault.decryptEncoded`: payloads as texts
-/

namespace Strongbox

/-- An encrypting vault. -/
structure AesVault where
  /-- How keys are derived. -/
  kdf : Kdf
  /-- The size of the keys. -/
  keySize : Aes.KeySize
  /-- It is the size of the keys that are derived. -/
  keyLength_keySize : keySize.keyLength = kdf.keyLength
  /-- How payloads are written as texts. -/
  codec : Codec
  /-- Where initialization vectors are drawn from. -/
  random : Random
  /-- The password, until the vault is closed. -/
  password : Option Password

namespace AesVault

/-- Opens a vault. The password is looked at first. -/
def «open» (kdf : Kdf) (password : Password) (codec : Codec) (random : Random) :
    Result AesVault :=
  if password.isEmpty then .error (.invalidInput .emptyPassword)
  else match h : Aes.KeySize.ofKeyLength? kdf.keyLength with
    | some size =>
      have fits : size.keyLength = kdf.keyLength := by
        simpa using List.find?_some h
      .ok ⟨kdf, size, fits, codec, random, some password⟩
    | none => .error (.invalidInput (.keyLength kdf.keyLength))

/-- The password of a vault that is not closed. -/
def passwordDue (vault : AesVault) : Result Password :=
  match vault.password with
  | some password => .ok password
  | none => .error .vaultDestroyed

/-- The payload of a byte string, and the vault after its vector is drawn. -/
def encrypt (vault : AesVault) (data : Bytes) : Result (Bytes × AesVault) := do
  let password ← vault.passwordDue
  let (iv, random) := Iv.draw vault.random
  let key ← vault.kdf.deriveKey password.bytes iv.bytes
  let ciphertext ← Cipher.encrypt key.bytes iv.bytes data
  return (iv.bytes ++ ciphertext, { vault with random })

/-- The byte string of a payload. -/
def decrypt (vault : AesVault) (payload : Bytes) : Result Bytes := do
  let password ← vault.passwordDue
  match Iv.ofPrefix? payload with
  | some iv =>
    let key ← vault.kdf.deriveKey password.bytes iv.bytes
    Cipher.decrypt key.bytes iv.bytes (payload.drop blockLength)
  | none => .error .decryptionFailed

/-- The vault without its password. -/
def close (vault : AesVault) : AesVault := { vault with password := none }

/-- Whether the vault is closed. -/
def isDestroyed (vault : AesVault) : Bool := vault.password.isNone

/-- What is shown of a vault. -/
def outline (vault : AesVault) : Text.Outline :=
  .record "AesVault"
    [("spec", vault.kdf.spec.outline), ("key_size", .word vault.keySize.describe),
      ("codec", vault.codec.outline), ("destroyed", .word (toString vault.isDestroyed))] false

end AesVault

/-- A vault of either kind. -/
inductive Vault where
  /-- A vault that leaves everything as it is. -/
  | plain (codec : Codec)
  /-- A vault that encrypts. -/
  | aes (vault : AesVault)

namespace Vault

/-- The vault that leaves everything as it is, with the codec used when none is given. -/
def passThrough : Vault := .plain .default

/-- The kind of a vault. -/
def kind : Vault → Kind
  | .plain _ => .plain
  | .aes _ => .aes

/-- How keys are derived, if they are. -/
def spec? : Vault → Option Derivation.Spec
  | .plain _ => none
  | .aes vault => some vault.kdf.spec

/-- How payloads are written as texts. -/
def codec : Vault → Codec
  | .plain codec => codec
  | .aes vault => vault.codec

/-- The payload of a byte string, and the vault after that. -/
def encrypt : Vault → Bytes → Result (Bytes × Vault)
  | .plain codec, data => .ok (data, .plain codec)
  | .aes vault, data => (vault.encrypt data).map fun (payload, vault) => (payload, .aes vault)

/-- The byte string of a payload. -/
def decrypt : Vault → Bytes → Result Bytes
  | .plain _, payload => .ok payload
  | .aes vault, payload => vault.decrypt payload

/-- Closes a vault, for good; a vault that only passes on has nothing to close. -/
def close : Vault → Vault
  | .plain codec => .plain codec
  | .aes vault => .aes vault.close

/-- Whether a vault is closed. -/
def isDestroyed : Vault → Bool
  | .plain _ => false
  | .aes vault => vault.isDestroyed

/-- Whether a vault can encrypt. -/
def canEncrypt (vault : Vault) : Bool := !vault.isDestroyed

/-- Whether a vault can decrypt. -/
def canDecrypt (vault : Vault) : Bool := !vault.isDestroyed

/-- The payload of a byte string as a text, and the vault after that. -/
def encryptEncoded (vault : Vault) (data : Bytes) : Result (String × Vault) := do
  let (payload, next) ← vault.encrypt data
  return (vault.codec.encode payload, next)

/-- The byte string of a payload that is given as a text. -/
def decryptEncoded (vault : Vault) (text : String) : Result Bytes := do
  let payload ← vault.codec.decode text
  vault.decrypt payload

/-- What is shown of a vault. -/
def outline : Vault → Text.Outline
  | .plain codec => .record "NoOpVault" [("codec", codec.outline)] true
  | .aes vault => vault.outline

end Vault

end Strongbox
