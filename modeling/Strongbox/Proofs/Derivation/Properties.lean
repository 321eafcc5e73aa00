import Strongbox.Derivation.Properties
import Strongbox.Proofs.Json.Record

/-!
# Derivation properties read back

Properties are written member by member, those that are missing left out, and are read back as
they are from every spelling of what is written.

## Main definitions

* `Properties.written`: the members that are written

## Main results

* `Properties.fills`: the members make the properties they were written for
* `Properties.decode_spelled`: properties are read back from every spelling
* `Properties.ofJson_toJson`: properties are read back as they are written
-/

namespace Strongbox.Derivation.Properties

open Json

/-- The members that are written. -/
def written (p : Properties) : List (String × Document) :=
  Document.member? "function" .string p.function ++
    (Document.member? "hashFunction" .string p.hashFunction ++
    (Document.member? "derivedKeyLength" numberDocument p.derivedKeyLength ++
    (Document.member? "iterations" numberDocument p.iterations ++
    (Document.member? "blockSize" numberDocument p.blockSize ++
    (Document.member? "parallelization" numberDocument p.parallelization ++ [])))))

theorem document_eq (p : Properties) : p.document = .object p.written := by
  simp [document, written]

variable {source : Source} {room : Nat} {seen : List String} {record p : Properties}
  {name : String} {ms : List (String × Document)}

theorem fills_text {aliases : List String} {set : Properties → Option String → Properties}
    {value : Option String}
    (hfield : schema.fields.find? (·.answersTo name) = some (textField name aliases set))
    (hseen : name ∉ seen) (hnone : set record none = record)
    (hrest : Fills schema.fields source room (name :: seen) (set record value) ms p) :
    Fills schema.fields source room seen record (Document.member? name .string value ++ ms) p :=
  .member? hfield hseen hnone (fun v => (reads_string source v).nullable.map (set record)) hrest

theorem fills_number {set : Properties → Option UInt32 → Properties} {value : Option UInt32}
    (hfield : schema.fields.find? (·.answersTo name) = some (numberField name set))
    (hseen : name ∉ seen) (hnone : set record none = record)
    (hrest : Fills schema.fields source room (name :: seen) (set record value) ms p) :
    Fills schema.fields source room seen record
      (Document.member? name numberDocument value ++ ms) p :=
  .member? hfield hseen hnone (fun v => (reads_natural source room v).nullable.map (set record))
    hrest

/-- The members that are written make the properties they were written for: each is for a field not
given before, and a field of which nothing is written stays as it is at first. -/
theorem fills (source : Source) (room : Nat) (p : Properties) :
    Fills schema.fields source room [] schema.initial p.written p :=
  fills_text rfl (by simp) rfl <|
  fills_text rfl (by simp) rfl <|
  fills_number rfl (by simp) rfl <|
  fills_number rfl (by simp) rfl <|
  fills_number rfl (by simp) rfl <|
  fills_number rfl (by simp) rfl
  .nil

theorem reads_document (source : Source) (room : Nat) (p : Properties) :
    Reads (schema.read source (room + 1)) p.document p := by
  rw [document_eq]
  exact Schema.reads (fills source room p)

/-- **Properties are read back from every spelling of their document**, from a text as from
bytes. -/
theorem decode_spelled (source : Source) (p : Properties) {before bytes after : Bytes}
    (hbefore : Blank before) (hbytes : Spells p.document bytes) (hafter : Blank after) :
    schema.decode source (before ++ bytes ++ after) = .ok p :=
  document_of_takes (reads_document source _ p hbytes) hbefore hafter

theorem ofJson_spelled (p : Properties) {text : String}
    (h : Spells p.document (Text.Utf8.encode text)) : ofJson text = .ok p := by
  have hdecode := decode_spelled .text p .nil h .nil
  rwa [List.nil_append, List.append_nil] at hdecode

theorem ofJson_toJson (p : Properties) : ofJson p.toJson = .ok p :=
  ofJson_spelled p (Document.spells_compact p.document)

end Strongbox.Derivation.Properties
