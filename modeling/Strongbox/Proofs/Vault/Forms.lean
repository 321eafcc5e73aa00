import Strongbox.Proofs.Derivation.Forms
import Strongbox.Proofs.Vault.Document

/-!
# Configurations in either form

A configuration is an object or an array, and so are the properties in it. Neither choice shows in
what is read, be it a configuration or a fault.

## Main definitions

* `Config.names`: the names of the parts, in the order of the array
* `Config.ReadAlike`, `Config.ReadAs`, `Config.Refused`: documents that are read alike, as a
  configuration, or not at all

## Main results

* `Config.isLocal_fields`: the fields judge values by themselves
* `Config.judge_kdf`: the form of properties does not show
* `Config.forms_agree`: arrays and objects agree
-/

namespace Strongbox.Vault.Config

open Json
open Strongbox.Derivation (Properties)
open Text.Utf8 (encode)

/-- The names of the parts, in the order of the array. -/
def names : List String := ["type", "codec", "kdf"]

theorem hasNames_schema : schema.HasNames where
  find := by
    intro field hfield
    simp only [schema, List.mem_cons, List.not_mem_nil, or_false] at hfield
    rcases hfield with rfl | rfl | rfl <;> rfl
  nodup := by decide

/-- **The fields of a configuration judge values by themselves.** -/
theorem isLocal_fields (source : Source) : ∀ field ∈ schema.fields, ∀ room record,
    IsLocal (field.read source room record) := by
  intro field hfield room record
  have hproperties := Properties.isLocal_schema source room
  simp only [schema, List.mem_cons, List.not_mem_nil, or_false] at hfield
  rcases hfield with rfl | rfl | rfl
  · exact (isLocal_string source).map fun kind => ({ record with kind } : Config)
  · exact (isLocal_string source).refined.map fun codec => ({ record with codec } : Config)
  · exact hproperties.nullable.map fun kdf => ({ record with kdf } : Config)

theorem isLocal_schema (source : Source) (room : Nat) : IsLocal (schema.read source room) :=
  Schema.isLocal (isLocal_fields source)

variable {source : Source} {room : Nat} {values : List Bytes} {bytes data data' : Bytes}

/-- Properties that are not `null` are stored as they are judged. -/
theorem judge_kdfField (h : IsValue bytes) (hne : bytes ≠ encode "null") (config : Config) :
    judge (kdfField.read source room config) bytes =
      (judge (Properties.schema.read source room) bytes).map fun p =>
        { config with kdf := some p } := by
  have hstore := judge_map (nullable (Properties.schema.read source room))
    (fun kdf => ({ config with kdf } : Config)) bytes
  rw [judge_nullable h hne] at hstore
  refine hstore.trans ?_
  cases judge (Properties.schema.read source room) bytes <;> rfl

/-- **The form of properties does not show** in a configuration. -/
theorem judge_kdf (hlen : values.length ≤ 6) (h : IsForm Properties.names values bytes)
    (config : Config) : judge (kdfField.read source (room + 1) config) bytes =
      (fromElements source room Properties.schema.fields Properties.schema.initial values).map
        fun p => { config with kdf := some p } := by
  rw [judge_kdfField h.isValue h.ne_null, Properties.judge_form source room hlen h]

theorem judge_kdf_too_many (hlen : 6 < values.length) (h : IsArray values bytes)
    (config : Config) :
    ∃ fault, judge (kdfField.read source (room + 1) config) bytes = .error fault := by
  obtain ⟨fault, hfault⟩ := Properties.judge_too_many source room hlen h
  exact ⟨fault, by rw [judge_kdfField h.isValue h.ne_null, hfault]; rfl⟩

/-! ## Documents -/

/-- A configuration is what its values make of it, in either form. -/
theorem decode_form (hlen : values.length ≤ 3) (h : Alone (IsForm names values) data) :
    schema.decode source data = fromElements source 126 schema.fields schema.initial values :=
  (isLocal_schema source maxNesting).document_of_alone (fun _ hvalue =>
    ⟨hvalue.isValue, Schema.judge_values (isLocal_fields source) hasNames_schema hlen hvalue⟩) h

/-- Values for the first few parts give a configuration in an array as they do in an object. -/
theorem decode_array {config : Config} (hlen : values.length ≤ 3)
    (hgives : Gives part? config.Shows config.Due (names.zip values))
    (h : Alone (IsArray values) data) : schema.decode source data = .ok config := by
  refine (isLocal_schema source maxNesting).document_of_alone (fun bytes hvalue => ?_) h
  refine ⟨hvalue.isValue, ?_⟩
  exact parts.judge_of_gives (isLocal_fields source) hasNames_schema config.only rfl
    (fun _ _ _ hshows => takes_part hshows) (fun _ hseen => only_of_due hseen) hgives
    (.inr ⟨values, hlen, rfl, hvalue⟩)

theorem decode_too_many (hlen : 3 < values.length) (h : Alone (IsArray values) data) :
    ∃ fault, schema.decode source data = .error fault := by
  obtain ⟨before, value, after, hbefore, hvalue, hafter, rfl⟩ := h
  obtain ⟨fault, hfault⟩ : ∃ fault, judge (schema.read source (126 + 1)) value = .error fault :=
    Schema.judge_too_many (isLocal_fields source) hlen hvalue
  exact ⟨fault,
    ((isLocal_schema source maxNesting).document hvalue.isValue hbefore hafter).trans hfault⟩

/-- Two documents are read alike, as bytes and as texts, down to the fault. -/
def ReadAlike (data data' : Bytes) : Prop :=
  ofBytes data = ofBytes data' ∧
    ∀ text text', encode text = data → encode text' = data' → ofJson text = ofJson text'

/-- A document is read as a configuration, as bytes and as a text. -/
def ReadAs (config : Config) (data : Bytes) : Prop :=
  ofBytes data = .ok config ∧ ∀ text, encode text = data → ofJson text = .ok config

/-- A document is not read, neither as bytes nor as a text. -/
def Refused (data : Bytes) : Prop :=
  (∃ error, ofBytes data = .error error) ∧
    ∀ text, encode text = data → ∃ error, ofJson text = .error error

theorem readAlike_of_decode (h : ∀ source, schema.decode source data = schema.decode source data') :
    ReadAlike data data' := by
  refine ⟨by rw [ofBytes, ofBytes, h], ?_⟩
  rintro text text' rfl rfl
  rw [ofJson, ofJson, h]

theorem readAs_of_decode {config : Config} (h : ∀ source, schema.decode source data = .ok config) :
    ReadAs config data := by
  refine ⟨by rw [ofBytes, h]; rfl, ?_⟩
  rintro text rfl
  rw [ofJson, h]
  rfl

theorem refused_of_decode (h : ∀ source, ∃ fault, schema.decode source data = .error fault) :
    Refused data := by
  refine ⟨?_, ?_⟩
  · obtain ⟨fault, hfault⟩ := h .bytes
    exact ⟨.serialization fault, by rw [ofBytes, hfault]; rfl⟩
  · rintro text rfl
    obtain ⟨fault, hfault⟩ := h .text
    exact ⟨.serialization fault, by rw [ofJson, hfault]; rfl⟩

/-- What is made of a kind, a codec and properties depends on how the properties are judged. -/
theorem fromElements_congr {kind codec kdf kdf' : Bytes}
    (h : ∀ config, judge (kdfField.read source room config) kdf =
      judge (kdfField.read source room config) kdf') (config : Config) :
    fromElements source room schema.fields config [kind, codec, kdf] =
      fromElements source room schema.fields config [kind, codec, kdf'] := by
  simp only [schema, fromElements, h]

/-- Properties that are refused are refused with the configuration. -/
theorem fromElements_error_of_kdf {kind codec kdf : Bytes}
    (h : ∀ config, ∃ fault, judge (kdfField.read source room config) kdf = .error fault)
    (config : Config) :
    ∃ fault, fromElements source room schema.fields config [kind, codec, kdf] = .error fault := by
  cases hkind : judge (kindField.read source room config) kind with
  | error fault => exact ⟨fault, by simp only [schema, fromElements, hkind, bind, Except.bind]⟩
  | ok config₁ =>
    cases hcodec : judge (codecField.read source room config₁) codec with
    | error fault =>
      exact ⟨fault, by simp only [schema, fromElements, hkind, hcodec, bind, Except.bind]⟩
    | ok config₂ =>
      obtain ⟨fault, hfault⟩ := h config₂
      refine ⟨fault, ?_⟩
      simp only [schema, fromElements, hkind, hcodec, hfault, bind, Except.bind]

/-- **Arrays and objects agree.** Whatever the values are, an array of them and the object that
gives them to the first few fields are read alike, both properties and configurations, and so are
the two forms of the properties in a configuration. An array of what the parts are given as is read,
and one with more values than there are fields is refused. -/
theorem forms_agree :
    (∀ values text text', values.length ≤ 6 → Alone (IsArray values) (encode text) →
        Alone (IsObject (Properties.names.zip values)) (encode text') →
        Properties.ofJson text = Properties.ofJson text') ∧
      (∀ (p : Properties) values text, values.length ≤ 6 →
        Gives Properties.part? p.Shows p.Due (Properties.names.zip values) →
        Alone (IsArray values) (encode text) → Properties.ofJson text = .ok p) ∧
      (∀ values text, 6 < values.length → Alone (IsArray values) (encode text) →
        ∃ fault, Properties.ofJson text = .error fault) ∧
      (∀ values data data', values.length ≤ 3 → Alone (IsArray values) data →
        Alone (IsObject (names.zip values)) data' → ReadAlike data data') ∧
      (∀ (config : Config) values data, values.length ≤ 3 →
        Gives part? config.Shows config.Due (names.zip values) →
        Alone (IsArray values) data → ReadAs config data) ∧
      (∀ values data, 3 < values.length → Alone (IsArray values) data → Refused data) ∧
      (∀ values kind codec kdf kdf' data data', values.length ≤ 6 → IsArray values kdf →
        IsObject (Properties.names.zip values) kdf' →
        Alone (IsForm names [kind, codec, kdf]) data →
        Alone (IsForm names [kind, codec, kdf']) data' → ReadAlike data data') ∧
      (∀ values kind codec kdf data, 6 < values.length → IsArray values kdf →
        Alone (IsForm names [kind, codec, kdf]) data → Refused data) := by
  refine ⟨?_, ?_, fun _ _ => Properties.ofJson_too_many, ?_, ?_, ?_, ?_, ?_⟩
  · intro values text text' hlen harray hobject
    rw [Properties.ofJson_form hlen (harray.imp fun _ => .inl),
      Properties.ofJson_form hlen (hobject.imp fun _ => .inr)]
  · intro p values text hlen hgives harray
    exact Properties.ofJson_array hlen hgives harray
  · intro values data data' hlen harray hobject
    apply readAlike_of_decode
    intro source
    rw [decode_form hlen (harray.imp fun _ => .inl), decode_form hlen (hobject.imp fun _ => .inr)]
  · intro config values data hlen hgives harray
    exact readAs_of_decode fun _ => decode_array hlen hgives harray
  · intro values data hlen harray
    exact refused_of_decode fun _ => decode_too_many hlen harray
  · intro values kind codec kdf kdf' data data' hlen harray hobject hdata hdata'
    apply readAlike_of_decode
    intro source
    have hthree (kdf : Bytes) : [kind, codec, kdf].length ≤ 3 := Nat.le_refl 3
    rw [decode_form (hthree kdf) hdata, decode_form (hthree kdf') hdata']
    apply fromElements_congr
    intro config
    exact (judge_kdf hlen (.inl harray) config).trans (judge_kdf hlen (.inr hobject) config).symm
  · intro values kind codec kdf data hlen harray hdata
    apply refused_of_decode
    intro source
    have hthree : [kind, codec, kdf].length ≤ 3 := Nat.le_refl 3
    rw [decode_form hthree hdata]
    exact fromElements_error_of_kdf (judge_kdf_too_many hlen harray) _

theorem forms_agree_of_samples :
    Properties.ofJson "[\"scrypt\",null,\"32\"]" = Properties.ofJson
        "\x7b\"function\":\"scrypt\",\"hashFunction\":null,\"derivedKeyLength\":\"32\"\x7d" ∧
      Properties.ofJson "[\"scrypt\"]" = .ok { function := some "scrypt" } ∧
      (∃ fault, Properties.ofJson "[null,null,null,null,null,null,null]" = .error fault) ∧
      ReadAlike (encode "[\"none\",7]") (encode "\x7b\"type\":\"none\",\"codec\":7\x7d") ∧
      ReadAs { kind := "none" } (encode "[\"none\"]") ∧
      Refused (encode "[\"none\",\"hex\",null,null]") ∧
      ReadAlike (encode "[\"aes\",\"hex\",[\"scrypt\"]]")
        (encode "[\"aes\",\"hex\",\x7b\"function\":\"scrypt\"\x7d]") ∧
      Refused (encode "[\"aes\",\"hex\",[null,null,null,null,null,null,null]]") := by
  obtain ⟨hproperties, hread, htooMany, hconfig, hconfigRead, hconfigTooMany, hnested,
    hnestedTooMany⟩ := forms_agree
  have hnull : IsValue (encode "null") := .word (by decide)
  have hnumber : IsValue (encode "7") := .number (isNumber_digitBytes 7)
  have hstring (s : String) : IsValue (encode (quoted s)) := (Spells.string s).isValue
  have hnulls (n : Nat) : ∀ value ∈ List.replicate n (encode "null"), IsValue value :=
    fun value h => List.eq_of_mem_replicate h ▸ hnull
  have harray {values : List Bytes} (h : ∀ value ∈ values, IsValue value) {data : Bytes}
      (hdata : openBracket :: elementsTail true values = data) : IsArray values data :=
    hdata ▸ isArray_elementsTail h
  have hobject {members : List (String × Bytes)} (h : ∀ member ∈ members, IsValue member.2)
      {data : Bytes} (hdata : openBrace :: membersTail true members = data) :
      IsObject members data :=
    hdata ▸ isObject_membersTail h
  have hscrypt : IsArray [encode (quoted "scrypt")] (encode "[\"scrypt\"]") :=
    harray (by simp [hstring]) (by decide)
  have hscrypt' : IsObject [("function", encode (quoted "scrypt"))]
      (encode "\x7b\"function\":\"scrypt\"\x7d") :=
    hobject (by simp [hstring]) (by decide)
  have htooManyNulls : IsArray (List.replicate 7 (encode "null"))
      (encode "[null,null,null,null,null,null,null]") :=
    harray (hnulls 7) (by decide)
  have haes {kdf : Bytes} (h : IsValue kdf) {data : Bytes} (hdata : openBracket ::
      elementsTail true [encode (quoted "aes"), encode (quoted "hex"), kdf] = data) :
      Alone (IsForm names [encode (quoted "aes"), encode (quoted "hex"), kdf]) data :=
    alone_self (.inl (harray (by simp [hstring, h]) hdata))
  have hspells (s : String) : IsString s (encode (quoted s)) :=
    ⟨_, spellsText_quoted _, encode_quoted _⟩
  refine ⟨?_, ?_, ?_, ?_, ?_, ?_, ?_, ?_⟩
  · exact hproperties [encode (quoted "scrypt"), encode "null", encode (quoted "32")] _ _
      (by decide) (alone_self (harray (by simp [hstring, hnull]) (by decide)))
      (alone_self (hobject (by simp [Properties.names, hstring, hnull]) (by decide)))
  · refine hread _ _ _ (by decide) ⟨?_, List.forall_mem_singleton.mpr nofun, by decide, ?_⟩
      (alone_self hscrypt)
    · refine List.forall_mem_singleton.mpr ?_
      rintro _ ⟨⟩
      exact .string (hspells "scrypt")
    · intro i hi
      cases i with
      | function => decide
      | _ => exact absurd rfl hi
  · exact htooMany _ _ (by decide) (alone_self htooManyNulls)
  · exact hconfig [encode (quoted "none"), encode "7"] _ _ (by decide)
      (alone_self (harray (by simp [hstring, hnumber]) (by decide)))
      (alone_self (hobject (by simp [names, hstring, hnumber]) (by decide)))
  · have hnone : IsArray [encode (quoted "none")] (encode "[\"none\"]") :=
      harray (by simp [hstring]) (by decide)
    refine hconfigRead _ _ _ (by decide) ⟨?_, List.forall_mem_singleton.mpr nofun, by decide, ?_⟩
      (alone_self hnone)
    · refine List.forall_mem_singleton.mpr ?_
      rintro _ ⟨⟩
      exact hspells "none"
    · intro i hi
      cases i with
      | kind => decide
      | _ => exact absurd rfl hi
  · exact hconfigTooMany
      [encode (quoted "none"), encode (quoted "hex"), encode "null", encode "null"] _ (by decide)
      (alone_self (harray (by simp [hstring, hnull]) (by decide)))
  · exact hnested _ (encode (quoted "aes")) (encode (quoted "hex")) _ _ _ _ (by decide) hscrypt
      hscrypt' (haes hscrypt.isValue (by decide)) (haes hscrypt'.isValue (by decide))
  · exact hnestedTooMany _ (encode (quoted "aes")) (encode (quoted "hex")) _ _ (by decide)
      htooManyNulls (haes htooManyNulls.isValue (by decide))

end Strongbox.Vault.Config
