import Strongbox.Proofs.Derivation.Document
import Strongbox.Proofs.Json.Forms

/-!
# Properties in either form

Properties are an object of named parts, or an array of the first few of them. The array gives what
the object gives that names its elements in the order of the schema, down to the fault.

## Main definitions

* `Properties.names`: the names of the parts, in the order of the array

## Main results

* `Properties.isLocal_fields`: the fields judge values by themselves
* `Properties.judge_form`: how either form is judged
* `Properties.ofJson_form`, `Properties.ofJson_array`, `Properties.ofJson_too_many`: documents
-/

namespace Strongbox.Derivation.Properties

open Json
open Text.Utf8 (encode)

/-- The names of the parts, in the order of the array. -/
def names : List String :=
  ["function", "hashFunction", "derivedKeyLength", "iterations", "blockSize", "parallelization"]

theorem hasNames_schema : schema.HasNames where
  find := by
    intro field hfield
    simp only [schema, List.mem_cons, List.not_mem_nil, or_false] at hfield
    rcases hfield with rfl | rfl | rfl | rfl | rfl | rfl <;> rfl
  nodup := by decide

/-- **The fields of properties judge values by themselves.** -/
theorem isLocal_fields (source : Source) : ∀ field ∈ schema.fields, ∀ room record,
    IsLocal (field.read source room record) :=
  forall_fields (fun _ _ set _ record => (isLocal_string source).nullable.map (set record))
    fun _ set room record => (isLocal_natural source room).nullable.map (set record)

theorem isLocal_schema (source : Source) (room : Nat) : IsLocal (schema.read source room) :=
  Schema.isLocal (isLocal_fields source)

variable (source : Source) (room : Nat) {values : List Bytes} {bytes : Bytes} {text : String}

/-- Properties are what their values make of them, in either form. -/
theorem judge_form (hlen : values.length ≤ 6) (h : IsForm names values bytes) :
    judge (schema.read source (room + 1)) bytes =
      fromElements source room schema.fields schema.initial values :=
  Schema.judge_values (isLocal_fields source) hasNames_schema hlen h

/-- No part is left for a value too many. -/
theorem judge_too_many (hlen : 6 < values.length) (h : IsArray values bytes) :
    ∃ fault, judge (schema.read source (room + 1)) bytes = .error fault :=
  Schema.judge_too_many (isLocal_fields source) hlen h

/-- Values for the first few parts give properties in an array as they do in an object. -/
theorem judge_array {p : Properties} (hlen : values.length ≤ 6)
    (hgives : Gives part? p.Shows p.Due (names.zip values)) (h : IsArray values bytes) :
    judge (schema.read source (room + 1)) bytes = .ok p :=
  parts.judge_of_gives (isLocal_fields source) hasNames_schema p.only rfl
    (fun _ _ _ hshows => takes_part hshows) (fun _ hseen => only_of_due hseen) hgives
    (.inr ⟨values, hlen, rfl, h⟩)

theorem ofJson_form (hlen : values.length ≤ 6) (h : Alone (IsForm names values) (encode text)) :
    ofJson text = fromElements .text 126 schema.fields schema.initial values :=
  (isLocal_schema .text maxNesting).document_of_alone
    (fun _ hvalue => ⟨hvalue.isValue, judge_form .text 126 hlen hvalue⟩) h

theorem ofJson_array {p : Properties} (hlen : values.length ≤ 6)
    (hgives : Gives part? p.Shows p.Due (names.zip values))
    (h : Alone (IsArray values) (encode text)) : ofJson text = .ok p :=
  (isLocal_schema .text maxNesting).document_of_alone
    (fun _ hvalue => ⟨hvalue.isValue, judge_array .text 126 hlen hgives hvalue⟩) h

theorem ofJson_too_many (hlen : 6 < values.length) (h : Alone (IsArray values) (encode text)) :
    ∃ fault, ofJson text = .error fault := by
  obtain ⟨before, value, after, hbefore, hvalue, hafter, htext⟩ := h
  obtain ⟨fault, hfault⟩ := judge_too_many .text 126 hlen hvalue
  refine ⟨fault, ?_⟩
  rw [ofJson, Schema.decode, htext]
  exact ((isLocal_schema .text maxNesting).document hvalue.isValue hbefore hafter).trans hfault

end Strongbox.Derivation.Properties
