import Strongbox.Derivation.Draft
import Strongbox.Vault.Basic
import Strongbox.Vault.Config
/-!
# Vault drafts

A draft is a vault in the making: a kind, and what was set for it so far. What is set later takes
the place of what was set before.

## Main definitions

* `Vault.Draft`: a vault in the making
* `Vault.Setting`, `Draft.apply`: what can be set
* `Draft.ofConfig`: the draft of a configuration
* `Draft.build`: the vault of a draft
-/

namespace Strongbox.Vault

open Strongbox.Derivation (Properties Spec)

/-- A vault in the making. -/
structure Draft where
  /-- The kind. -/
  kind : Kind
  /-- How keys are derived, if set. -/
  kdf : Option Kdf := none
  /-- The password, if set. -/
  password : Option Password := none
  /-- How payloads are written as texts. -/
  codec : Codec := .default
  /-- Where initialization vectors are drawn from, if set. -/
  random : Option Random := none

/-- What can be set in a draft. -/
inductive Setting where
  /-- The password. -/
  | password (password : Password)
  /-- Where initialization vectors are drawn from. -/
  | random (random : Random)
  /-- How keys are derived. -/
  | kdf (kdf : Kdf)
  /-- How keys are derived, as a spec. -/
  | spec (spec : Spec)
  /-- How keys are derived, as properties. -/
  | properties (properties : Properties)
  /-- How payloads are written as texts. -/
  | codec (codec : Codec)
  /-- How payloads are written as texts, by name. -/
  | codecName (name : String)

namespace Draft

/-- A draft in which nothing is set. -/
def ofKind (kind : Kind) : Draft := { kind }

/-- A draft in which nothing is set, its kind by name. -/
def ofName (name : String) : Result Draft := do return ofKind (← Kind.ofName name)

/-- Sets how keys are derived, as a spec. -/
def setSpec (draft : Draft) (spec : Spec) : Result Draft := do
  return { draft with kdf := some (← spec.kdf) }

/-- Sets how keys are derived, as properties. -/
def setProperties (draft : Draft) (properties : Properties) : Result Draft := do
  draft.setSpec (← Spec.ofProperties properties)

/-- Sets what a setting says. -/
def apply (draft : Draft) : Setting → Result Draft
  | .password password => .ok { draft with password := some password }
  | .random random => .ok { draft with random := some random }
  | .kdf kdf => .ok { draft with kdf := some kdf }
  | .spec spec => draft.setSpec spec
  | .properties properties => draft.setProperties properties
  | .codec codec => .ok { draft with codec }
  | .codecName name => do return { draft with codec := ← Codec.ofName name }

/-- The draft of a configuration. How keys are derived is only looked at for an encrypting
vault, which cannot do without. -/
def ofConfig (config : Config) : Result Draft := do
  let draft : Draft := { kind := ← config.parsedKind, codec := config.codec }
  match draft.kind, config.kdf with
  | .plain, _ => return draft
  | .aes, some properties => draft.setProperties properties
  | .aes, none => .error (.missingParameter "kdf")

/-- The vault of a draft; `fallback` is where initialization vectors are drawn from if nothing is
set. -/
def build (fallback : Random) (draft : Draft) : Result Vault :=
  match draft.kind with
  | .plain => .ok (.plain draft.codec)
  | .aes =>
    match draft.password, draft.kdf with
    | none, _ => .error (.missingParameter "password")
    | some _, none => .error (.missingParameter "kdf")
    | some password, some kdf =>
      (AesVault.open kdf password draft.codec (draft.random.getD fallback)).map .aes

end Draft

end Strongbox.Vault
