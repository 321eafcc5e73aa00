import Strongbox.Naming
/-!
# Vault configurations

A configuration names the kind of a vault, its codec and how it derives keys. The kind stays a
text, so that an unknown one is only refused when the vault is built.

## Main definitions

* `Vault.Config`: a configuration
* `Config.schema`, `Config.ofJson`, `Config.ofBytes`: reading
* `Config.document`, `Config.toJson`: writing
-/

namespace Strongbox.Vault

open Strongbox.Derivation (Properties)

/-- A vault configuration. -/
structure Config where
  /-- The name of the kind. -/
  kind : String := Kind.default.name
  /-- The codec of encoded payloads. -/
  codec : Codec := .default
  /-- How keys are derived. -/
  kdf : Option Properties := none
deriving DecidableEq, Repr

namespace Config

/-- The configuration of a vault that encrypts. -/
def aes (kdf : Properties) : Config := { kdf := some kdf }

/-- The configuration of a vault that leaves everything as it is. -/
def plain : Config := { kind := Kind.plain.name }

/-- The kind. -/
def kindField : Json.Field Config where
  name := "type"
  aliases := []
  read source _ config s :=
    (Json.string source s).map fun (kind, rest) => ({ config with kind }, rest)
  length_of_read := by
    intro source room config s config' rest h
    cases h₁ : Json.string source s with
    | error _ => simp [h₁, Except.map] at h
    | ok p =>
      simp only [h₁, Except.map, Except.ok.injEq, Prod.mk.injEq] at h
      exact h.2 ▸ Json.length_of_string h₁

/-- The codec. -/
def codecField : Json.Field Config where
  name := "codec"
  aliases := []
  read source _ config s :=
    (named Codec.ofName source s).map fun (codec, rest) => ({ config with codec }, rest)
  length_of_read := by
    intro source room config s config' rest h
    cases h₁ : named Codec.ofName source s with
    | error _ => simp [h₁, Except.map] at h
    | ok p =>
      simp only [h₁, Except.map, Except.ok.injEq, Prod.mk.injEq] at h
      exact h.2 ▸ length_of_named h₁

/-- How keys are derived. -/
def kdfField : Json.Field Config where
  name := "kdf"
  aliases := []
  read source room config s :=
    (Json.nullable (Properties.schema.read source room) s).map fun (kdf, rest) =>
      ({ config with kdf }, rest)
  length_of_read := by
    intro source room config s config' rest h
    cases h₁ : Json.nullable (Properties.schema.read source room) s with
    | error _ => simp [h₁, Except.map] at h
    | ok p =>
      simp only [h₁, Except.map, Except.ok.injEq, Prod.mk.injEq] at h
      exact h.2 ▸ Json.length_of_nullable Json.Schema.length_of_read h₁

/-- How configurations are read. -/
def schema : Json.Schema Config where
  name := "VaultConfig"
  initial := {}
  fields := [kindField, codecField, kdfField]

/-- The configuration of a document that is known to be a text. -/
def ofJson (text : String) : Result Config :=
  (schema.decode .text (Text.Utf8.encode text)).mapError .serialization

/-- The configuration of a document. -/
def ofBytes (data : Bytes) : Result Config := (schema.decode .bytes data).mapError .serialization

/-- The configuration of a file, given what reading the file gave. -/
def ofFile : Except FileFault Bytes → Result Config
  | .ok data => ofBytes data
  | .error fault => .error (.file fault)

/-- What is written of a configuration. -/
def document (config : Config) : Json.Document :=
  .object <|
    [("type", .string config.kind), ("codec", .string config.codec.name)] ++
      Json.Document.member? "kdf" Properties.document config.kdf

/-- The document of a configuration, one member a line. -/
def toJson (config : Config) : String := config.document.pretty

/-- The kind a configuration names. -/
def parsedKind (config : Config) : Result Kind := Kind.ofName config.kind

end Config

end Strongbox.Vault
