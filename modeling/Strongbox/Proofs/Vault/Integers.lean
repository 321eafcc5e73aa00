import Strongbox.Proofs.Derivation.Integers
import Strongbox.Proofs.Vault.Nested

/-!
# Whole numbers in documents

Every value that a document gives for one of the four numbers of properties is judged by what it is,
be the document properties or a configuration that has them, and however the rest of it is written.

## Main results

* `Config.judge_kdf_otherwise`: a value for a number of the properties in a configuration
* `Config.whole_numbers`: what documents make of such values
-/

namespace Strongbox.Vault.Config

open Json
open Strongbox.Derivation (Properties)
open Text.Utf8 (encode)

variable {config : Config} {p : Properties} {i : Properties.NumberPart} {value properties : Bytes}

/-- **A value for a number of the properties** makes of a configuration what it is judged to be. -/
theorem judge_kdf_otherwise (source : Source) (room : Nat) {bytes : Bytes}
    (hvalue : IsValue value)
    (hproperties : Properties.parts.GivesOtherwise p.Shows p.Due i.part value properties)
    (h : parts.GivesOtherwise config.Shows config.Due .kdf properties bytes) :
    judge (schema.read source (room + 2)) bytes =
      (judge (nullable (natural source room)) value).map fun n =>
        { config with kdf := some (i.set p n) } := by
  have hjudge := Properties.judge_otherwise source room hproperties hvalue
  have hkdf (record : Config) :
      judge (kdfField.read source (room + 1) record) properties =
      (judge (nullable (natural source room)) value).map fun n =>
        { record with kdf := some (i.set p n) } := by
    refine (judge_kdfField hproperties.isValue hproperties.ne_null record).trans ?_
    rw [hjudge]
    cases judge (nullable (natural source room)) value <;> rfl
  cases hnumber : judge (nullable (natural source room)) value with
  | error fault =>
    refine h.judge_eq_error (isLocal_fields source) hasNames_schema config.only rfl
      (fun _ _ _ hshows => takes_part hshows) (fun _ hseen => only_of_due hseen) fun record => ?_
    refine (hkdf record).trans ?_
    rw [hnumber]
    rfl
  | ok n =>
    refine judge_with_kdf (fun record => ?_) h
    rw [hkdf, hnumber]
    rfl

/-! ## Documents -/

theorem ofJson_otherwise {text : String} (hvalue : IsValue value)
    (h : Alone (Properties.parts.GivesOtherwise p.Shows p.Due i.part value) (encode text)) :
    Properties.ofJson text =
      (judge (nullable (natural .text 126)) value).map (i.set p) := by
  refine (Properties.isLocal_schema .text maxNesting).document_of_alone (fun bytes hgives => ?_) h
  exact ⟨hgives.isValue, Properties.judge_otherwise .text 126 hgives hvalue⟩

theorem decode_otherwise (source : Source) {data : Bytes} (hvalue : IsValue value)
    (hproperties : Properties.parts.GivesOtherwise p.Shows p.Due i.part value properties)
    (h : Alone (parts.GivesOtherwise config.Shows config.Due .kdf properties) data) :
    schema.decode source data = (judge (nullable (natural source 125)) value).map fun n =>
      { config with kdf := some (i.set p n) } := by
  refine (isLocal_schema source maxNesting).document_of_alone (fun bytes hgives => ?_) h
  exact ⟨hgives.isValue, judge_kdf_otherwise source 125 hvalue hproperties hgives⟩

/-- **Whole numbers have the spellings they are documented with, and no others.** A value for the
length of keys, the iterations, the size of blocks or the lanes is judged by what it is, and so is
the document that it stands in, if nothing else is wrong with it. -/
theorem whole_numbers :
    (∀ (p : Properties) (i : Properties.NumberPart) tree value text, Written tree value →
        AreTexts tree.strings →
        Alone (Properties.parts.GivesOtherwise p.Shows p.Due i.part value) (encode text) →
        ∃ outcome, Judged 126 tree value outcome ∧
          Properties.ofJson text = outcome.map (i.set p)) ∧
      (∀ (config : Config) (p : Properties) (i : Properties.NumberPart) tree value properties data,
        Written tree value → AreTexts tree.strings →
        Properties.parts.GivesOtherwise p.Shows p.Due i.part value properties →
        Alone (parts.GivesOtherwise config.Shows config.Due .kdf properties) data →
        (∃ outcome, Judged 125 tree value outcome ∧
          ofBytes data = (outcome.map fun n => { config with kdf := some (i.set p n) }).mapError
            .serialization) ∧
        ∀ text, encode text = data → ∃ outcome, Judged 125 tree value outcome ∧
          ofJson text = (outcome.map fun n => { config with kdf := some (i.set p n) }).mapError
            .serialization) := by
  refine ⟨?_, ?_⟩
  · intro p i tree value text hvalue htexts h
    exact ⟨_, judged .text 126 hvalue htexts, ofJson_otherwise hvalue.isValue h⟩
  · intro config p i tree value properties data hvalue htexts hproperties h
    have hdecode (source : Source) := decode_otherwise source hvalue.isValue hproperties h
    refine ⟨⟨_, judged .bytes 125 hvalue htexts, ?_⟩, ?_⟩
    · rw [ofBytes, hdecode]
    · rintro text rfl
      exact ⟨_, judged .text 125 hvalue htexts, by rw [ofJson, hdecode]⟩

/-- The sample of properties that name a function and give a value for the iterations. -/
theorem givesOtherwise_iterations {value : Bytes} (hvalue : IsValue value) :
    Properties.parts.GivesOtherwise (Properties.Shows { function := some "scrypt" })
      (Properties.Due { function := some "scrypt" }) .iterations value
      (openBrace :: membersTail true
        [("function", encode (quoted "scrypt")), ("iterations", value)]) := by
  have hfunction : IsString "scrypt" (encode (quoted "scrypt")) :=
    ⟨_, spellsText_quoted _, encode_quoted _⟩
  have hname : IsValue (encode (quoted "scrypt")) := (Spells.string "scrypt").isValue
  refine ⟨[("function", encode (quoted "scrypt"))], "iterations", [], rfl, ⟨?_, ?_, by decide, ?_⟩,
    .inl (isObject_membersTail ?_)⟩
  · refine List.forall_mem_cons.mpr ⟨?_, List.forall_mem_singleton.mpr ?_⟩
    · rintro _ ⟨⟩
      exact .string hfunction
    · rintro _ ⟨⟩
      exact .null
  · exact List.forall_mem_cons.mpr ⟨nofun, List.forall_mem_singleton.mpr nofun⟩
  · intro i hi
    cases i with
    | function => decide
    | _ => exact absurd rfl hi
  · exact List.forall_mem_cons.mpr ⟨hname, List.forall_mem_singleton.mpr hvalue⟩

/-- The sample of a configuration with nothing but properties in it. -/
theorem givesOtherwise_kdf {properties : Bytes} (h : IsValue properties) :
    parts.GivesOtherwise (Shows {}) (Due {}) .kdf properties
      (openBrace :: membersTail true [("kdf", properties)]) := by
  refine ⟨[], "kdf", [], rfl, ⟨?_, List.forall_mem_singleton.mpr nofun, by decide, ?_⟩,
    .inl (isObject_membersTail (List.forall_mem_singleton.mpr h))⟩
  · refine List.forall_mem_singleton.mpr ?_
    rintro _ ⟨⟩
    exact .null
  · intro i hi
    cases i <;> exact absurd rfl hi

theorem whole_numbers_of_samples :
    Properties.ofJson "\x7b\"function\":\"scrypt\",\"iterations\":\" +007\"\x7d" =
        .ok { function := some "scrypt", iterations := some 7 } ∧
      Properties.ofJson "\x7b\"function\":\"scrypt\",\"iterations\":4294967296\x7d" =
        .error (.integerOutOfRange 4294967296) ∧
      Properties.ofJson "\x7b\"function\":\"scrypt\",\"iterations\":\"1 0\"\x7d" =
        .error (.invalidInteger "1 0") ∧
      ofJson "\x7b\"kdf\":\x7b\"function\":\"scrypt\",\"iterations\":[true]\x7d\x7d" =
        .error (.serialization .neitherNumberNorString) := by
  obtain ⟨hproperties, hconfig⟩ := whole_numbers
  have htexts (s : String) : AreTexts (Tree.strings (.string
      (Text.Utf8.encodeChars (s.toList.flatMap quotedChar)))) :=
    List.forall_mem_singleton.mpr ⟨s.toList, spellsText_quoted s.toList⟩
  have hstring (s : String) :
      Written (.string (Text.Utf8.encodeChars (s.toList.flatMap quotedChar)))
        (encode (quoted s)) := by
    rw [encode_quoted]
    exact .string (spellsText_quoted s.toList).isContents
  have hspells (s : String) : IsString s (encode (quoted s)) :=
    ⟨_, spellsText_quoted _, encode_quoted _⟩
  have hread {tree : Tree} {value : Bytes} (text : String) (hvalue : Written tree value)
      (htexts : AreTexts tree.strings) (htext : openBrace :: membersTail true
        [("function", encode (quoted "scrypt")), ("iterations", value)] = encode text) :
      ∃ outcome, Judged 126 tree value outcome ∧ Properties.ofJson text =
        outcome.map fun n => { function := some "scrypt", iterations := n } :=
    hproperties { function := some "scrypt" } .iterations tree value text hvalue htexts
      (htext ▸ alone_self (givesOtherwise_iterations hvalue.isValue))
  refine ⟨?_, ?_, ?_, ?_⟩
  · obtain ⟨outcome, houtcome, heq⟩ :=
      hread "\x7b\"function\":\"scrypt\",\"iterations\":\" +007\"\x7d" (hstring " +007")
        (htexts " +007") (by decide)
    have hdecimal : IsDecimal (7 : UInt32).toNat " +007" :=
      ⟨[' '], ['+'], 2, [], List.forall_mem_singleton.mpr rfl, .inr rfl, nofun, by decide⟩
    have hdenotes : Denotes (7 : UInt32).toNat (encode (quoted " +007")) :=
      .inr ⟨" +007", hdecimal, hspells " +007"⟩
    rw [heq, (houtcome.present (7 : UInt32)).mpr hdenotes]
    rfl
  · obtain ⟨outcome, houtcome, heq⟩ :=
      hread "\x7b\"function\":\"scrypt\",\"iterations\":4294967296\x7d"
        (.number (isNumber_digitBytes 4294967296)) (List.forall_mem_nil _) (by decide)
    rw [heq, (houtcome.outOfRange 4294967296).mpr ⟨.inl rfl, by decide, by decide⟩]
    rfl
  · obtain ⟨outcome, houtcome, heq⟩ :=
      hread "\x7b\"function\":\"scrypt\",\"iterations\":\"1 0\"\x7d" (hstring "1 0")
        (htexts "1 0") (by decide)
    have hnone : ∀ n < UInt64.size, ¬IsDecimal n "1 0" := by
      intro n hn hdecimal
      have hspelled : spelledNatural? "1 0" = none := by decide
      cases hspelled.symm.trans (spelledNatural?_of_isDecimal hdecimal hn)
    rw [heq, (houtcome.invalid "1 0").mpr ⟨hspells _, hnone⟩]
    rfl
  · have hitems : WrittenItems .square true [([], .word (encode "true"))]
        ([] ++ encode "true" ++ ([] ++ [Bracket.square.close])) :=
      .cons (.square (.first .nil)) (.word (by decide)) (.nil .nil)
    have hwritten := Written.bracketed hitems
    have hgives := givesOtherwise_iterations hwritten.isValue
    have hdocument := givesOtherwise_kdf hgives.isValue
    obtain ⟨-, hread⟩ := hconfig {} { function := some "scrypt" } .iterations _ _ _ _ hwritten
      (List.forall_mem_nil _) hgives (alone_self hdocument)
    obtain ⟨outcome, houtcome, heq⟩ := hread
      "\x7b\"kdf\":\x7b\"function\":\"scrypt\",\"iterations\":[true]\x7d\x7d" (by decide)
    have hother : IsOther (openBracket :: (encode "true" ++ [closeBracket])) := by
      refine ⟨by decide, ?_, ?_⟩
      · rintro s ⟨raw, -, heq⟩
        exact absurd (List.cons.inj heq).1 (by decide)
      · intro n _ heq
        have hmem : openBracket ∈ digitBytes n := heq ▸ List.mem_cons_self
        exact absurd (isDigit_of_mem_digitBytes hmem) (by decide)
    rw [heq, houtcome.neither.mpr ⟨hother, by decide, List.forall_mem_nil _⟩]
    rfl

end Strongbox.Vault.Config
