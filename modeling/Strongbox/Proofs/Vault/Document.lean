import Strongbox.Proofs.Derivation.Document
import Strongbox.Vault.Config

/-!
# Configurations as they may be written

A configuration means the same however it is written, as its properties do: its kind may be left
out if it is the default one, its codec goes by any of its names, and its properties are an object
of their own or `null`. What is read as a configuration is an array or object of the grammar, and
neither it nor its properties give a part twice.

## Main definitions

* `Config.Part`, `Config.part?`: the parts of configurations and the keys that stand for them
* `Config.IsWritten`: an object that gives a configuration
* `Config.Clashes`: an object that gives a part of the configuration or of its properties twice

## Main results

* `Config.takes`: an object that gives a configuration is read as the configuration
* `Config.not_clashes`: what is read gives no part twice
* `Config.read_any_layout`: how texts and bytes are read, or not
* `Config.isDocument_of_read`: what is read is a document of the grammar
-/

namespace Strongbox.Vault.Config

open Json
open Strongbox.Derivation (Properties Spec)
open Text.Utf8 (encode)

/-! ## The parts of a configuration -/

/-- The parts of a configuration. -/
inductive Part where
  | kind
  | codec
  | kdf
deriving DecidableEq

/-- The part that a key stands for. -/
def part? : String → Option Part
  | "type" => some .kind
  | "codec" => some .codec
  | "kdf" => some .kdf
  | _ => none

/-- What properties that may be missing can be given as. -/
inductive ShowsProperties : Option Properties → Bytes → Prop where
  | null : ShowsProperties none (encode "null")
  | object {p : Properties} {bytes : Bytes} (h : p.IsWritten bytes) : ShowsProperties (some p) bytes

/-- What a part can be given as. -/
def Shows (config : Config) : Part → Bytes → Prop
  | .kind => IsString config.kind
  | .codec => fun bytes => ∃ name, Codec.ofName name = .ok config.codec ∧ IsString name bytes
  | .kdf => ShowsProperties config.kdf

/-- The parts that have to be given: those that differ from what stands in for them. -/
def Due (config : Config) : Part → Prop
  | .kind => config.kind ≠ Kind.default.name
  | .codec => config.codec ≠ .default
  | .kdf => config.kdf ≠ none

/-- An object that gives a configuration. -/
def IsWritten (config : Config) (bytes : Bytes) : Prop :=
  ∃ members, Gives part? config.Shows config.Due members ∧ IsObject members bytes

/-- An object that gives a part of a configuration twice, or a part of its properties. -/
def Clashes (bytes : Bytes) : Prop :=
  GivesTwice part? bytes ∨
    ∃ items item key, HasItems items bytes ∧ item ∈ items ∧ SpellsText key.toList item.1 ∧
      part? key = some .kdf ∧ GivesTwice Properties.part? item.2

/-- The field of a part. -/
def field : Part → Json.Field Config
  | .kind => kindField
  | .codec => codecField
  | .kdf => kdfField

theorem find?_eq (key : String) :
    schema.fields.find? (·.answersTo key) = (part? key).map field := by
  rw [part?.eq_def]
  split
  · rfl
  · rfl
  · rfl
  · next hkind hcodec hkdf =>
    refine List.find?_eq_none.mpr fun field hfield => ?_
    simp only [schema, List.mem_cons, List.not_mem_nil, or_false] at hfield
    rcases hfield with rfl | rfl | rfl
    · exact not_answersTo hkind List.not_mem_nil
    · exact not_answersTo hcodec List.not_mem_nil
    · exact not_answersTo hkdf List.not_mem_nil

/-- The parts of configurations are the parts of their schema. -/
def parts : Parts schema Part where
  part? := part?
  field := field
  find?_eq := find?_eq
  name_injective := by
    intro i j h
    cases i <;> cases j <;> first | rfl | exact absurd h (by decide)

/-! ## Reading -/

/-- The configuration that has some parts of another, and what stands in for the rest. -/
def only (config : Config) (seen : List Part) : Config where
  kind := if .kind ∈ seen then config.kind else Kind.default.name
  codec := if .codec ∈ seen then config.codec else .default
  kdf := if .kdf ∈ seen then config.kdf else none

variable {config : Config} {source : Source} {room : Nat} {data : Bytes}

theorem takes_kind {kind : String} {bytes : Bytes} (h : IsString kind bytes) :
    Takes (kindField.read source room config) bytes { config with kind } :=
  (takes_isString source h).map fun kind => ({ config with kind } : Config)

theorem takes_codec {codec : Codec} {name : String} {bytes : Bytes}
    (hname : Codec.ofName name = .ok codec) (h : IsString name bytes) :
    Takes (codecField.read source room config) bytes { config with codec } := by
  have hread : Takes (named Codec.ofName source) bytes codec := by
    refine (takes_isString source h).refined ?_
    rw [hname]
    rfl
  exact hread.map fun codec => ({ config with codec } : Config)

theorem takes_kdf {kdf : Option Properties} {bytes : Bytes} (h : ShowsProperties kdf bytes) :
    Takes (kdfField.read source (room + 1) config) bytes { config with kdf } := by
  have hread : Takes (nullable (Properties.schema.read source (room + 1))) bytes kdf := by
    cases h with
    | null => exact takes_null _
    | object h => exact (Properties.takes h).nullable h.begins
  exact hread.map fun kdf => ({ config with kdf } : Config)

theorem takes_part {seen : List Part} {i : Part} {bytes : Bytes} (h : config.Shows i bytes) :
    Takes ((field i).read source (room + 1) (config.only seen)) bytes
      (config.only (i :: seen)) := by
  cases i with
  | kind =>
    have hset : config.only (.kind :: seen) = { config.only seen with kind := config.kind } := by
      simp [only]
    rw [hset]
    exact takes_kind h
  | codec =>
    have hset : config.only (.codec :: seen) =
        { config.only seen with codec := config.codec } := by
      simp [only]
    obtain ⟨name, hname, hstring⟩ := h
    rw [hset]
    exact takes_codec hname hstring
  | kdf =>
    have hset : config.only (.kdf :: seen) = { config.only seen with kdf := config.kdf } := by
      simp [only]
    rw [hset]
    exact takes_kdf h

theorem only_of_due {seen : List Part} (h : ∀ i, config.Due i → i ∈ seen) :
    config.only seen = config := by
  obtain ⟨kind, codec, kdf⟩ := config
  simp only [only, Config.mk.injEq]
  exact ⟨ite_of_due h .rfl, ite_of_due h .rfl, ite_of_due h .rfl⟩

/-- **An object that gives a configuration is read as the configuration.** -/
theorem takes {bytes : Bytes} (h : config.IsWritten bytes) :
    Takes (schema.read source (room + 2)) bytes config := by
  obtain ⟨members, hgives, hobject⟩ := h
  exact parts.takes config.only rfl (fun _ _ _ hshows => takes_part hshows)
    (fun _ hseen => only_of_due hseen) hgives hobject

theorem decode_of_isWritten (h : Alone config.IsWritten data) :
    schema.decode source data = .ok config :=
  document_of_alone (fun _ hvalue => takes hvalue) h

/-! ## What is not read -/

theorem sound_fields (source : Source) : ∀ field ∈ schema.fields, ∀ room record,
    Sound (field.read source room record) := by
  intro field hfield room record
  have hproperties : Sound (Properties.schema.read source room) :=
    Schema.sound (Properties.sound_fields source)
  simp only [schema, List.mem_cons, List.not_mem_nil, or_false] at hfield
  rcases hfield with rfl | rfl | rfl
  · exact (sound_string source).map fun kind => ({ record with kind } : Config)
  · exact (sound_string source).refined.map fun codec => ({ record with codec } : Config)
  · exact hproperties.nullable.map fun kdf => ({ record with kdf } : Config)

theorem wasRead_of_kdf {items : List (Bytes × Bytes)} {value : Bytes}
    (hitems : HasItems items value)
    (h : WasRead (kdfField.read source room config) value) :
    WasRead (Properties.schema.read source room) value := by
  obtain ⟨space, rest, rest', _, hspace, h⟩ := h
  obtain ⟨⟨_, _⟩, hread, -⟩ := map_eq_ok_iff.mp h
  obtain ⟨members, hmembers, rfl⟩ := hitems
  have hskip : skipSpace (space ++ openBrace :: members ++ rest) = openBrace :: (members ++ rest) :=
    (IsValue.bracketed hmembers).skipSpace hspace rest
  rw [nullable, hskip] at hread
  simp only at hread
  rw [if_neg (by decide)] at hread
  obtain ⟨⟨p, _⟩, hread, -⟩ := map_eq_ok_iff.mp hread
  exact ⟨[], rest, _, p, .nil, hread⟩

/-- **Neither a configuration that is read nor its properties give a part twice.** -/
theorem not_clashes (h : WasRead (schema.read source room) data) : ¬Clashes data := by
  rintro (htwice | ⟨items, item, key, hitems, hitem, hkey, hpart, htwice⟩)
  · exact parts.not_givesTwice (sound_fields source) h htwice
  · obtain ⟨room, record, hread⟩ := (read_of_object (sound_fields source) hitems h).1 item hitem
      kdfField (parts.belongsTo hkey hpart)
    obtain ⟨items', hitems'⟩ := htwice.exists_hasItems
    exact Properties.not_givesTwice (wasRead_of_kdf hitems' hread) htwice

theorem isDocument_of_decode (h : schema.decode source data = .ok config) : IsDocument data :=
  Schema.isDocument_of_decode (sound_fields source) h

/-! ## Samples -/

theorem spellsText_escaped : SpellsText "pbkdf2".toList (encode "\\u0070bkdf2") := by
  have hunit : SpellsUnit 'p'.toNat [0x30, 0x30, 0x37, 0x30] :=
    ⟨0, 0, 7, 0, 0x30, 0x30, 0x37, 0x30, by decide⟩
  have hchars : "pbkdf2".toList = 'p' :: "bkdf2".toList := by decide
  have hbytes : encode "\\u0070bkdf2" = backslash :: 0x75 :: [0x30, 0x30, 0x37, 0x30] ++
      Text.Utf8.encodeChars ("bkdf2".toList.flatMap quotedChar) := by decide
  rw [hchars, hbytes]
  exact .cons (.unit hunit) (spellsText_quoted "bkdf2".toList)

/-- Properties with an escape in a string, a member of no part and a zero in front of a number. -/
def propertiesText : String :=
  "\x7b\"function\": \"\\u0070bkdf2\", \"n\":[\x7b\x7d],\"iterations\":\"07\"\x7d"

/-- A configuration that gives these properties first and no codec. -/
def configText : String := "\x7b\"kdf\":" ++ propertiesText ++ ",\"type\":\"none\"\x7d"

theorem isWritten_propertiesText :
    Properties.IsWritten { function := some "pbkdf2", iterations := some 7 }
      (encode propertiesText) := by
  have hiterations : SpellsText "07".toList (encode "07") := spellsText_quoted "07".toList
  have hdecimal : IsDecimal 7 "07" := ⟨[], [], 1, [], nofun, .inl rfl, nofun, by decide⟩
  have hobject : IsValue (encode "\x7b\x7d") := @IsValue.bracketed .curly [] _ (.nil .nil)
  have hother : IsValue (encode "[\x7b\x7d]") :=
    .bracketed (.cons (.square (.first .nil)) hobject (.nil .nil))
  have hspace : Blank [0x20] := .cons rfl .nil
  refine ⟨[("function", quote :: (encode "\\u0070bkdf2" ++ [quote])), ("n", encode "[\x7b\x7d]"),
    ("iterations", quote :: (encode "07" ++ [quote]))], ⟨?_, ?_, by decide, ?_⟩, ?_⟩
  · refine List.forall_mem_cons.mpr ⟨?_, List.forall_mem_cons.mpr ⟨nofun,
      List.forall_mem_singleton.mpr ?_⟩⟩
    · rintro _ ⟨⟩
      exact .string ⟨_, spellsText_escaped, rfl⟩
    · rintro _ ⟨⟩
      exact .string hdecimal ⟨_, hiterations, rfl⟩
  · exact List.forall_mem_cons.mpr ⟨nofun, List.forall_mem_cons.mpr ⟨fun _ => hother,
      List.forall_mem_singleton.mpr nofun⟩⟩
  · intro i hi
    cases i with
    | function => decide
    | iterations => decide
    | _ => exact absurd rfl hi
  · have hlast := IsItems.cons (fronts_quoted (.next .nil .nil) "iterations" .nil .nil)
      (.string hiterations.isContents) (.nil .nil)
    have hmiddle := IsItems.cons (fronts_quoted (.next .nil hspace) "n" .nil .nil) hother hlast
    have hfirst := IsItems.cons (fronts_quoted (.first .nil) "function" .nil hspace)
      (.string spellsText_escaped.isContents) hmiddle
    exact ⟨_, .cons ⟨spellsText_quoted _, rfl⟩ <| .cons ⟨spellsText_quoted _, rfl⟩ <|
      .cons ⟨spellsText_quoted _, rfl⟩ .nil, _, hfirst, by decide⟩

theorem isWritten_configText :
    IsWritten { kind := "none", kdf := some { function := some "pbkdf2", iterations := some 7 } }
      (encode configText) := by
  have hkind : SpellsText "none".toList (encode "none") := spellsText_quoted "none".toList
  obtain ⟨_, _, _, _, hitems⟩ := isWritten_propertiesText
  refine ⟨[("kdf", encode propertiesText), ("type", quote :: (encode "none" ++ [quote]))],
    ⟨?_, ?_, by decide, ?_⟩, ?_⟩
  · refine List.forall_mem_cons.mpr ⟨?_, List.forall_mem_singleton.mpr ?_⟩
    · rintro _ ⟨⟩
      exact .object isWritten_propertiesText
    · rintro _ ⟨⟩
      exact ⟨_, hkind, rfl⟩
  · exact List.forall_mem_cons.mpr ⟨nofun, List.forall_mem_singleton.mpr nofun⟩
  · intro i hi
    cases i with
    | codec => exact absurd rfl hi
    | _ => decide
  · have hlast := IsItems.cons (fronts_quoted (.next .nil .nil) "type" .nil .nil)
      (.string hkind.isContents) (.nil .nil)
    have hfirst := IsItems.cons (fronts_quoted (.first .nil) "kdf" .nil .nil) hitems.isValue hlast
    exact ⟨_, .cons ⟨spellsText_quoted _, rfl⟩ <| .cons ⟨spellsText_quoted _, rfl⟩ .nil, _, hfirst,
      by decide⟩

/-- Properties that give the digest under both of its names, and leave it missing. -/
theorem givesTwice_hash :
    GivesTwice Properties.part? (encode "\x7b\"hash\":null,\"hashFunction\":null\x7d") := by
  have hnull : IsValue (encode "null") := .word (by decide)
  have hlast := IsItems.cons (fronts_quoted (.next .nil .nil) "hashFunction" .nil .nil) hnull
    (.nil .nil)
  have hfirst := IsItems.cons (fronts_quoted (.first .nil) "hash" .nil .nil) hnull hlast
  exact ⟨_, "hash", "hashFunction", _, _, _, _, .hashFunction, ⟨_, hfirst, by decide⟩, .refl _,
    spellsText_quoted _, rfl, spellsText_quoted _, rfl⟩

theorem clashes_hash :
    Clashes (encode "\x7b\"kdf\":\x7b\"hash\":null,\"hashFunction\":null\x7d\x7d") := by
  obtain ⟨_, hitems⟩ := givesTwice_hash.exists_hasItems
  have hfirst := IsItems.cons (fronts_quoted (.first .nil) "kdf" .nil .nil) hitems.isValue
    (.nil .nil)
  exact .inr ⟨_, _, "kdf", ⟨_, hfirst, by decide⟩, List.mem_cons_self, spellsText_quoted _, rfl,
    givesTwice_hash⟩

/-! ## Texts and bytes -/

/-- **A configuration means the same however it is written**, and so do properties; one that gives a
part twice means nothing. -/
theorem read_any_layout :
    (∀ p text, Alone (Properties.IsWritten p) (encode text) → Properties.ofJson text = .ok p) ∧
      (∀ config text, Alone (IsWritten config) (encode text) → ofJson text = .ok config) ∧
      (∀ config data, Alone (IsWritten config) data → ofBytes data = .ok config) ∧
      (∀ text, Alone (GivesTwice Properties.part?) (encode text) →
        ∃ fault, Properties.ofJson text = .error fault) ∧
      (∀ text, Alone Clashes (encode text) → ∃ error, ofJson text = .error error) ∧
      (∀ data, Alone Clashes data → ∃ error, ofBytes data = .error error) := by
  have hdecode {source : Source} {data : Bytes} (h : Alone Clashes data) :
      ∃ fault, schema.decode source data = .error fault :=
    document_error_of_alone (fun _ hread => not_clashes hread) h
  refine ⟨fun _ _ h => Properties.ofJson_of_isWritten h, ?_, ?_, ?_, ?_, ?_⟩
  · intro config text h
    rw [ofJson, decode_of_isWritten h]
    rfl
  · intro config data h
    rw [ofBytes, decode_of_isWritten h]
    rfl
  · intro text h
    exact document_error_of_alone (fun _ hread => Properties.not_givesTwice hread) h
  · intro text h
    obtain ⟨fault, hfault⟩ := hdecode h
    exact ⟨.serialization fault, by rw [ofJson, hfault]; rfl⟩
  · intro data h
    obtain ⟨fault, hfault⟩ := hdecode h
    exact ⟨.serialization fault, by rw [ofBytes, hfault]; rfl⟩

theorem read_any_layout_of_samples :
    Properties.ofJson propertiesText = .ok { function := some "pbkdf2", iterations := some 7 } ∧
      ofJson ("\n" ++ configText) = .ok
        { kind := "none", kdf := some { function := some "pbkdf2", iterations := some 7 } } ∧
      ofBytes (encode configText) = .ok
        { kind := "none", kdf := some { function := some "pbkdf2", iterations := some 7 } } ∧
      (∃ fault, Properties.ofJson "\x7b\"hash\":null,\"hashFunction\":null\x7d" = .error fault) ∧
      (∃ error, ofJson "\x7b\"kdf\":\x7b\"hash\":null,\"hashFunction\":null\x7d\x7d" =
        .error error) ∧
      ∃ error, ofBytes (encode "\x7b\"kdf\":\x7b\"hash\":null,\"hashFunction\":null\x7d\x7d") =
        .error error := by
  obtain ⟨hproperties, htext, hbytes, htwice, hclash, hclash'⟩ := read_any_layout
  have hline : Blank [0x0A] := .cons rfl .nil
  exact ⟨hproperties _ _ (alone_self isWritten_propertiesText),
    htext _ _ ⟨[0x0A], _, [], hline, isWritten_configText, .nil, by decide⟩,
    hbytes _ _ (alone_self isWritten_configText), htwice _ (alone_self givesTwice_hash),
    hclash _ (alone_self clashes_hash), hclash' _ (alone_self clashes_hash)⟩

/-- **Nothing malformed is read**: what is read as properties, as a spec or as a configuration is a
document of the grammar, and the texts among it are UTF-8. -/
theorem isDocument_of_read :
    (∀ text p, Properties.ofJson text = .ok p → IsDocument (encode text)) ∧
      (∀ text spec, Spec.ofJson text = .ok spec → IsDocument (encode text)) ∧
      (∀ text config, ofJson text = .ok config → IsDocument (encode text)) ∧
      (∀ data config, ofBytes data = .ok config → IsDocument data) ∧
      ∀ text, Text.Utf8.decode (encode text) = .ok text := by
  refine ⟨fun _ _ h => Properties.isDocument_of_ofJson h, ?_, ?_, ?_, Text.Utf8.decode_encode⟩
  · intro text spec h
    obtain ⟨p, hp, -⟩ := bind_eq_ok_iff.mp h
    exact Properties.isDocument_of_ofJson (mapError_eq_ok_iff.mp hp)
  · intro text config h
    exact isDocument_of_decode (mapError_eq_ok_iff.mp h)
  · intro data config h
    exact isDocument_of_decode (mapError_eq_ok_iff.mp h)

theorem isDocument_of_read_samples :
    (∃ spec, Spec.ofJson propertiesText = .ok spec) ∧ IsDocument (encode propertiesText) ∧
      (∃ config, ofBytes (encode configText) = .ok config) ∧ IsDocument (encode configText) := by
  obtain ⟨-, hspec, -, hbytes, -⟩ := isDocument_of_read
  have hproperties := Properties.ofJson_of_isWritten (alone_self isWritten_propertiesText)
  obtain ⟨spec, hspec'⟩ : ∃ spec, Spec.ofJson propertiesText = .ok spec :=
    ⟨_, bind_eq_ok_iff.mpr ⟨_, mapError_eq_ok_iff.mpr hproperties, rfl⟩⟩
  obtain ⟨config, hconfig⟩ : ∃ config, ofBytes (encode configText) = .ok config :=
    ⟨_, mapError_eq_ok_iff.mpr (decode_of_isWritten (alone_self isWritten_configText))⟩
  exact ⟨⟨spec, hspec'⟩, hspec _ _ hspec', ⟨config, hconfig⟩, hbytes _ _ hconfig⟩

end Strongbox.Vault.Config
