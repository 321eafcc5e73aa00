import Strongbox.Proofs.Json.Nested
import Strongbox.Proofs.Vault.Forms
import Strongbox.Proofs.Vault.Source

/-!
# Properties inside of configurations

A document of properties, put into a configuration as it is, gives the configuration these
properties: the configuration is read if nothing else is wrong with it, and if it is read at all it
has these properties. That one bracket more is open around them does not matter, nor that a
configuration may be given as bytes.

## Main results

* `Properties.judge_of_ofJson`: properties are read wherever they stand
* `Config.decode_with_kdf`: a configuration with a document of properties in it is read
* `Config.kdf_of_decode`: a configuration that is read has the properties that are in it
-/

namespace Strongbox

open Json
open Text.Utf8 (encode isText_encode)

namespace Derivation.Properties

variable {p : Properties} {text : String} {value : Bytes}

theorem needsNoRoom_fields (source : Source) : ∀ field ∈ schema.fields, ∀ record,
    NeedsNoRoom fun room => field.read source room record :=
  forall_fields (fun _ _ set record => (needsNoRoom_const _).nullable.map (set record))
    fun _ set record => (needsNoRoom_natural source).nullable.map (set record)

/-- **Properties are read wherever they stand**: in a text or in bytes, and however many brackets
are open around them. -/
theorem judge_of_ofJson (h : ofJson text = .ok p) (hvalue : IsValue value)
    (htext : Alone (· = value) (encode text)) (source : Source) (room : Nat) :
    judge (schema.read source (room + 1)) value = .ok p := by
  have hdecode : schema.decode source (encode text) = .ok p := by
    cases source with
    | text => exact h
    | bytes => exact ((readsAlike_schema maxNesting).document (isText_encode text)).1.trans h
  obtain ⟨before, _, after, hbefore, rfl, hafter, heq⟩ := htext
  have hlocal := isLocal_schema source maxNesting
  rw [Schema.decode, heq, hlocal.document hvalue hbefore hafter] at hdecode
  exact Schema.judge_of_room (isLocal_fields source) (needsNoRoom_fields source) hvalue hdecode room

theorem ne_null_of_judge {source : Source} {room : Nat}
    (h : judge (schema.read source room) value = .ok p) : value ≠ encode "null" := by
  rintro rfl
  cases h

end Derivation.Properties

namespace Vault.Config

open Strongbox.Derivation (Properties)

variable {config : Config} {p : Properties} {text : String} {value data : Bytes}
  {source : Source} {room : Nat}

/-! ## With other properties -/

theorem shows_of_ne_kdf {kdf : Option Properties} {j : Part} (hj : j ≠ .kdf) :
    ({ config with kdf } : Config).Shows j = config.Shows j := by
  cases j with
  | kind => rfl
  | codec => rfl
  | kdf => exact absurd rfl hj

theorem due_of_ne_kdf {kdf : Option Properties} {j : Part} (hj : j ≠ .kdf) :
    ({ config with kdf } : Config).Due j = config.Due j := by
  cases j with
  | kind => rfl
  | codec => rfl
  | kdf => exact absurd rfl hj

theorem only_cons_kdf (config : Config) (seen : List Part) :
    config.only (.kdf :: seen) = { config.only seen with kdf := config.kdf } := by
  simp [only]

/-- A configuration has the properties that its value for them is judged to be. -/
theorem judge_with_kdf {kdf : Option Properties} {bytes : Bytes}
    (hkdf : ∀ record, judge (kdfField.read source (room + 1) record) value =
      .ok { record with kdf })
    (h : parts.GivesOtherwise config.Shows config.Due .kdf value bytes) :
    judge (schema.read source (room + 2)) bytes = .ok { config with kdf } := by
  have hfields := isLocal_fields source
  let config' : Config := { config with kdf }
  refine h.judge_eq_ok hfields hasNames_schema config'.only rfl ?_ ?_ ?_
  · intro seen j hj bytes hshows
    have hsame : config'.Shows j = config.Shows j := shows_of_ne_kdf hj
    rw [← hsame] at hshows
    exact takes_part hshows
  · intro seen
    have hlocal : IsLocal ((parts.field .kdf).read source (room + 1) (config'.only seen)) :=
      hfields kdfField (by simp [schema]) _ _
    rw [only_cons_kdf]
    exact hlocal.takes h.isValue_value (hkdf _)
  · intro seen hi hseen
    apply only_of_due
    intro j hdue
    by_cases hj : j = .kdf
    · exact hj ▸ hi
    · rw [due_of_ne_kdf hj] at hdue
      exact hseen j hj hdue

/-! ## A document of properties in a configuration -/

/-- Only one field stores properties. -/
theorem kdf_of_judge {field : Json.Field Config} (hfield : field ∈ schema.fields)
    (hne : field.name ≠ kdfField.name) (record : Config) (value : Bytes) (next : Config)
    (h : judge (field.read source room record) value = .ok next) : next.kdf = record.kdf := by
  simp only [schema, List.mem_cons, List.not_mem_nil, or_false] at hfield
  rcases hfield with rfl | rfl | rfl
  · have hstore := judge_map (string source) (fun kind => ({ record with kind } : Config)) value
    obtain ⟨kind, -, rfl⟩ := map_eq_ok_iff.mp (hstore.symm.trans h)
    rfl
  · have hstore := judge_map (named Codec.ofName source)
      (fun codec => ({ record with codec } : Config)) value
    obtain ⟨codec, -, rfl⟩ := map_eq_ok_iff.mp (hstore.symm.trans h)
    rfl
  · exact absurd rfl hne

section

variable (hp : Properties.ofJson text = .ok p) (htext : Alone (· = value) (encode text))

include hp htext

theorem judge_kdfField_of_ofJson (hvalue : IsValue value) (record : Config) :
    judge (kdfField.read source (room + 1) record) value = .ok { record with kdf := some p } := by
  have hjudge := Properties.judge_of_ofJson hp hvalue htext source room
  rw [judge_kdfField hvalue (Properties.ne_null_of_judge hjudge), hjudge]
  rfl

/-- **A configuration with a document of properties in it is read**, if nothing else is wrong with
it. -/
theorem decode_with_kdf (source : Source)
    (h : Alone (parts.GivesOtherwise config.Shows config.Due .kdf value) data) :
    schema.decode source data = .ok { config with kdf := some p } := by
  refine (isLocal_schema source maxNesting).document_of_alone (fun bytes hgives => ?_) h
  exact ⟨hgives.isValue,
    judge_with_kdf (judge_kdfField_of_ofJson hp htext hgives.isValue_value) hgives⟩

/-- **A configuration that is read has the properties that are in it.** -/
theorem kdf_of_decode {members : List (String × Bytes)} (hmem : ("kdf", value) ∈ members)
    (hobject : Alone (IsObject members) data) (h : schema.decode source data = .ok config) :
    config.kdf = some p := by
  obtain ⟨before, bytes, after, hbefore, hbytes, hafter, rfl⟩ := hobject
  have hlocal := isLocal_schema source maxNesting
  rw [Schema.decode, hlocal.document hbytes.isValue hbefore hafter] at h
  obtain ⟨items, hitems, hjudge⟩ := Schema.exists_judge_object (isLocal_fields source) hbytes
  have hmembers := hjudge.symm.trans h
  have hvalue : IsValue value := hbytes.isValue_of_mem hmem
  obtain ⟨first, rest, rfl⟩ := List.append_of_mem hmem
  obtain ⟨front, raw, tail, rfl, -, hraw, -⟩ := exists_of_spellsMember hitems
  obtain ⟨record, next, hnext, hkdf⟩ :=
    get_of_fromMembers Config.kdf (fun _ => kdf_of_judge) hraw rfl hmembers
  rw [judge_kdfField_of_ofJson hp htext hvalue] at hnext
  rw [hkdf, ← Except.ok.inj hnext]

end

end Vault.Config

end Strongbox
