import Strongbox.Proofs.Derivation.Properties
import Strongbox.Vault.Config

/-!
# Configurations read back

A configuration is written with its kind and its codec, and with its properties if it has any. It is
read back as it is, whatever its strings hold: from its text, and from the bytes of its text. A
configuration with properties that are all missing is not one without properties.

## Main definitions

* `Config.written`: the members that are written

## Main results

* `Config.fills`: the members make the configuration they were written for
* `Config.decode_spelled`: a configuration is read back from every spelling
* `Config.read_written`: configurations and properties are read back as they are written
-/

namespace Strongbox

open Json

theorem Codec.ofName_name (codec : Codec) : ofName codec.name = .ok codec := by
  cases codec <;> rfl

/-- A name is read back as what it names. -/
theorem reads_named {α : Type} {ofName : String → Result α} {name : String} {value : α}
    (h : ofName name = .ok value) (source : Source) :
    Reads (named ofName source) (.string name) value := by
  refine (reads_string source name).refined ?_
  rw [h]
  rfl

namespace Vault.Config

open Strongbox.Derivation (Properties)

/-- The members that are written. -/
def written (config : Config) : List (String × Document) :=
  ("type", .string config.kind) :: ("codec", .string config.codec.name) ::
    (Document.member? "kdf" Properties.document config.kdf ++ [])

theorem document_eq (config : Config) : config.document = .object config.written := by
  simp [document, written]

section

variable (source : Source) (room : Nat) (config : Config)

theorem reads_kind (kind : String) :
    Reads (kindField.read source room config) (.string kind) { config with kind } := by
  have hread := reads_string source kind
  exact hread.map fun kind => ({ config with kind } : Config)

theorem reads_codec (codec : Codec) :
    Reads (codecField.read source room config) (.string codec.name) { config with codec } := by
  have hread := reads_named codec.ofName_name source
  exact hread.map fun codec => ({ config with codec } : Config)

/-- The properties take one of the brackets that may be open. -/
theorem reads_kdf (p : Properties) : Reads (kdfField.read source (room + 1) config) p.document
    { config with kdf := some p } := by
  have hread := (Properties.reads_document source room p).nullable
  exact hread.map fun kdf => ({ config with kdf } : Config)

/-- The members that are written make the configuration they were written for. -/
theorem fills : Fills schema.fields source (room + 1) [] schema.initial config.written config := by
  have hkind : schema.fields.find? (·.answersTo "type") = some kindField := rfl
  have hcodec : schema.fields.find? (·.answersTo "codec") = some codecField := rfl
  have hkdf : schema.fields.find? (·.answersTo "kdf") = some kdfField := rfl
  refine .cons hkind List.not_mem_nil (reads_kind source _ _ config.kind) ?_
  refine .cons hcodec (by decide) (reads_codec source _ _ config.codec) ?_
  exact Fills.member? hkdf (by decide) rfl (reads_kdf source room _) .nil

end

/-- **A configuration is read back from every spelling of its document**, from a text as from
bytes. -/
theorem decode_spelled (source : Source) (config : Config) {before bytes after : Bytes}
    (hbefore : Blank before) (hbytes : Spells config.document bytes) (hafter : Blank after) :
    schema.decode source (before ++ bytes ++ after) = .ok config := by
  have hreads : Reads (schema.read source maxNesting) config.document config := by
    rw [document_eq]
    exact Schema.reads (fills source _ config)
  exact document_of_takes (hreads hbytes) hbefore hafter

theorem decode_toJson (source : Source) (config : Config) :
    schema.decode source (Text.Utf8.encode config.toJson) = .ok config := by
  have hdecode := decode_spelled source config .nil (Document.spells_pretty config.document) .nil
  rwa [List.nil_append, List.append_nil] at hdecode

/-- **Configurations and properties survive being written**: a configuration is read back as it is
from its text and from the bytes of its text, properties from their text. -/
theorem read_written (config : Config) (p : Properties) :
    ofJson config.toJson = .ok config ∧
      ofBytes (Text.Utf8.encode config.toJson) = .ok config ∧
      Properties.ofJson p.toJson = .ok p := by
  refine ⟨?_, ?_, Properties.ofJson_toJson p⟩
  · rw [ofJson, decode_toJson]
    rfl
  · rw [ofBytes, decode_toJson]
    rfl

end Vault.Config

end Strongbox
