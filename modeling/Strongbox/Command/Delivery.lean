import Strongbox.Command.Arguments
import Strongbox.Journal.Vault
/-!
# What a command delivers

Everything a command does before it writes: it reads files, the standard input and the password,
and either fails or has something to write. Nothing is written here, so that a failing command
leaves everything as it is.

## Main definitions

* `Command.Surroundings`: what a command can read
* `Command.Delivery`: what is to be written, and where
* `Command.deliver`: the delivery of an action
-/

namespace Strongbox.Command

open Strongbox.Derivation (Spec)

/-- What a command can read. -/
structure Surroundings where
  /-- The contents of the file that a path spells. -/
  read : String → Except FileFault Bytes
  /-- The standard input. -/
  input : Bytes
  /-- The password, if there is one; it cannot be asked for. -/
  password : Option String
  /-- Where initialization vectors are drawn from. -/
  random : Random

/-- Why a command failed, the outermost reason first. -/
abbrev Reasons := List String

/-- A part of a command. -/
abbrev Run := Journal Reasons

/-- The reasons of an error. -/
def reasons : Error → Reasons
  | .file fault => [(Error.file fault).message, fault.message]
  | error => [error.message]

/-- A part of a command that, if it fails, does so for a reason of its own. -/
def within {α : Type} (reason : String) (run : Journal Error α) : Run α :=
  run.mapError fun error => reason :: reasons error

/-- A failure. -/
def fail {α : Type} (reasons : Reasons) : Run α := Journal.lift (.error reasons)

/-- The name of the variable that holds the password. -/
def passwordVariable : String := "PWVAULT_PASSWORD"

/-- What is to be written, and where. -/
structure Delivery where
  /-- The file to write, or the standard output. -/
  destination : Option String
  /-- What is to be written. -/
  data : Bytes
  /-- What goes into the journal once it is written. -/
  report : Option Journal.Event

/-- An event for all. -/
def info (message : String) : Journal.Event := { level := .info, message }

namespace Surroundings

variable (around : Surroundings)

/-- The contents of a file. -/
def readFile (path : String) : Run Bytes :=
  match around.read path with
  | .ok data => return data
  | .error fault => fail ["Failed to read " ++ path, fault.message]

/-- The contents of a file, or of the standard input. -/
def readInput : Option String → Run Bytes
  | some path => around.readFile path
  | none => return around.input

/-- The password. -/
def readPassword : Run Password :=
  match around.password with
  | some password => do
    Journal.note { level := .debug, message := "Using password from " ++ passwordVariable }
    return .ofText password
  | none => fail ["Failed to read password"]

/-- The spec of a file. -/
def loadSpec (path : String) : Run Spec := do
  let data ← around.readFile path
  match Text.Utf8.decode data with
  | .ok text => within "Invalid KDF spec" (Journal.specOfJson text)
  | .error _ => fail ["Failed to read " ++ path, FileFault.notText.message]

/-- The vault of a configuration file. -/
def openVault (path : String) : Run Vault := do
  let config ← within ("Failed to load vault config " ++ path)
    (Journal.lift (Vault.Config.ofFile (around.read path)))
  Journal.note (info ("Opening " ++ config.kind ++ " vault"))
  let draft ← within "Invalid vault config" (Journal.draftOfConfig config)
  let password ← around.readPassword
  within "Failed to open vault"
    (Journal.buildVault around.random { draft with password := some password })

/-- Encrypts an input. -/
def encrypt (config : String) (input output : Option String) : Run Delivery := do
  let vault ← around.openVault config
  let data ← around.readInput input
  let outcome ← (Journal.encryptEncoded vault data).attempt
  let _ ← Journal.close vault
  let (text, _) ← within "Encryption failed" (Journal.lift outcome)
  return { destination := output
           data := Text.Utf8.encode (text ++ "\n")
           report := info ("Encrypted " ++ toString data.length ++ " bytes") }

/-- Decrypts an input. -/
def decrypt (config : String) (input output : Option String) : Run Delivery := do
  let vault ← around.openVault config
  let data ← around.readInput input
  match Text.Utf8.decode data with
  | .error fault => fail ["Payload is not valid text", fault.message]
  | .ok text =>
    let outcome ← (Journal.decryptEncoded vault (Text.trim text)).attempt
    let _ ← Journal.close vault
    let plain ← within "Decryption failed" (Journal.lift outcome)
    return { destination := output
             data := plain
             report := info ("Decrypted " ++ toString plain.length ++ " bytes") }

/-- Derives a key. -/
def derive (path salt : String) : Run Delivery := do
  let spec ← around.loadSpec path
  let salt ← within "Salt must be hex" (Journal.lift (Codec.hex.decode salt))
  let password ← around.readPassword
  Journal.note <| info <|
    "Deriving " ++ toString spec.keyLength.val ++ " byte key with " ++ spec.function.name
  let kdf ← within "Unsupported KDF parameters" (Journal.lift spec.kdf)
  let key ← within "Key derivation failed" (Journal.deriveKey kdf password.bytes salt)
  return { destination := none
           data := Text.Utf8.encode (Codec.hex.encode key.bytes ++ "\n")
           report := none }

/-- Prints a spec with all its parameters. -/
def spec (path : String) : Run Delivery := do
  let spec ← around.loadSpec path
  return { destination := none
           data := Text.Utf8.encode (spec.document.pretty ++ "\n")
           report := none }

end Surroundings

/-- The delivery of an action. -/
def deliver (around : Surroundings) : Action → Run Delivery
  | .encrypt config input output => around.encrypt config input output
  | .decrypt config input output => around.decrypt config input output
  | .derive kdf salt => around.derive kdf salt
  | .spec kdf => around.spec kdf

end Strongbox.Command
