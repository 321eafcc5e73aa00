import Strongbox.Derivation.Properties
import Strongbox.Proofs.Json.Object

/-!
# Properties as they may be written

Properties mean the same however they are written: a string in any mix of characters and escapes, a
number as a number or as a string of its digits, a missing part left out or given as `null`, and the
members in any order among members with other keys. What is read as properties is an array or
object of the grammar, and no object that gives a part twice.

## Main definitions

* `Properties.Part`, `Properties.part?`: the parts of properties and the keys that stand for them
* `Properties.IsWritten`: an object that gives properties

## Main results

* `Properties.takes`: an object that gives properties is read as the properties
* `Properties.sound_fields`: the fields keep to the grammar
-/

namespace Strongbox

open Json
open Text (isBlank)
open Text.Utf8 (encode)

/-! ## The values of parts -/

namespace Json

/-- A string, spelled in any way. -/
def IsString (s : String) (bytes : Bytes) : Prop :=
  ∃ raw, SpellsText s.toList raw ∧ bytes = quote :: (raw ++ [quote])

/-- The digits of a whole number, with zeros in front of them, perhaps a plus sign, and blanks
around. -/
def IsDecimal (n : Nat) (s : String) : Prop :=
  ∃ before sign zeros after, (∀ c ∈ before, isBlank c = true) ∧ (sign = [] ∨ sign = ['+']) ∧
    (∀ c ∈ after, isBlank c = true) ∧
    s.toList = before ++ (sign ++ (List.replicate zeros '0' ++ Nat.toDigits 10 n)) ++ after

/-- What a text that may be missing can be given as. -/
inductive ShowsText : Option String → Bytes → Prop where
  | null : ShowsText none (encode "null")
  | string {s : String} {bytes : Bytes} (h : IsString s bytes) : ShowsText (some s) bytes

/-- What a number that may be missing can be given as. -/
inductive ShowsNumber : Option UInt32 → Bytes → Prop where
  | null : ShowsNumber none (encode "null")
  | number (n : UInt32) : ShowsNumber (some n) (digitBytes n.toNat)
  | string {n : UInt32} {s : String} {bytes : Bytes} (hs : IsDecimal n.toNat s)
    (h : IsString s bytes) : ShowsNumber (some n) bytes

theorem takes_isString (source : Source) {s : String} {bytes : Bytes} (h : IsString s bytes) :
    Takes (string source) bytes s := by
  obtain ⟨raw, hraw, rfl⟩ := h
  exact takes_string source hraw

theorem IsString.begins {s : String} {bytes : Bytes} (h : IsString s bytes) : Begins bytes := by
  obtain ⟨raw, -, rfl⟩ := h
  exact begins_string raw

theorem takes_showsText (source : Source) {value : Option String} {bytes : Bytes}
    (h : ShowsText value bytes) : Takes (nullable (string source)) bytes value := by
  cases h with
  | null => exact takes_null _
  | string h => exact (takes_isString source h).nullable h.begins

theorem isBlank_of_isDigit {c : Char} (h : c.isDigit) : isBlank c = false := by
  obtain ⟨hlow, hhigh⟩ := Char.isDigit_iff_toNat.mp h
  have hzero : '0'.toNat = 48 := rfl
  have hnine : '9'.toNat = 57 := rfl
  simp only [isBlank, Bool.or_eq_false_iff, Bool.and_eq_false_iff, decide_eq_false_iff_not,
    beq_eq_false_iff_ne]
  omega

theorem spelledNatural?_of_isDecimal {n : Nat} {s : String} (h : IsDecimal n s)
    (hn : n < UInt64.size) : spelledNatural? s = some n := by
  obtain ⟨before, sign, zeros, after, hbefore, hsign, hafter, hs⟩ := h
  let ds := List.replicate zeros '0' ++ Nat.toDigits 10 n
  have hdigit : ∀ c ∈ ds, c.isDigit := by
    intro c hc
    rcases List.mem_append.mp hc with hc | hc
    · rw [List.eq_of_mem_replicate hc]
      rfl
    · exact isDigit_of_mem_toDigits hc
  have hnotBlank : ∀ c ∈ sign ++ ds, isBlank c = false := by
    intro c hc
    rcases List.mem_append.mp hc with hc | hc
    · rcases hsign with rfl | rfl
      · cases hc
      · rw [List.mem_singleton.mp hc]
        rfl
    · exact isBlank_of_isDigit (hdigit c hc)
  have htrim : Text.trimChars s.toList = sign ++ ds := by
    rw [hs, Text.trimChars_append_blank hafter, Text.trimChars_blank_append hbefore,
      Text.trimChars_eq_self hnotBlank]
  have hunsigned : (if (sign ++ ds).head? = some '+' then (sign ++ ds).tail else sign ++ ds) =
      ds := by
    rcases hsign with rfl | rfl
    · refine if_neg fun hhead => ?_
      exact absurd (hdigit '+' (List.mem_of_head? hhead)) (by decide)
    · rfl
  have hne : ds ≠ [] := fun h => Nat.toDigits_ne_nil (List.append_eq_nil_iff.mp h).2
  have hvalue : ds.foldl (fun n c => 10 * n + (c.toNat - '0'.toNat)) 0 = n := by
    have hzeros (zeros : Nat) : (List.replicate zeros '0').foldl
        (fun n c => 10 * n + (c.toNat - '0'.toNat)) 0 = 0 := by
      induction zeros with
      | zero => rfl
      | succ zeros ih => exact ih
    rw [List.foldl_append, hzeros, ← Nat.ofDigitChars_eq_foldl, Nat.ofDigitChars_ten_toDigits]
  simp only [spelledNatural?, htrim, hunsigned, hvalue, if_pos hn]
  exact if_pos ⟨hne, List.all_eq_true.mpr hdigit⟩

theorem takes_showsNumber (source : Source) (room : Nat) {value : Option UInt32} {bytes : Bytes}
    (h : ShowsNumber value bytes) : Takes (nullable (natural source room)) bytes value := by
  cases h with
  | null => exact takes_null _
  | number n => exact (takes_digitBytes source room n).nullable (begins_digitBytes n.toNat)
  | @string n s bytes hs h =>
    have hspelled : spelledNatural? s = some n.toNat :=
      spelledNatural?_of_isDecimal hs (Nat.lt_trans n.toNat_lt_size (by decide))
    obtain ⟨raw, hraw, rfl⟩ := h
    exact (takes_spelledNatural source room hraw hspelled).nullable (begins_string raw)

end Json

namespace Derivation.Properties

/-! ## The parts of properties -/

/-- The parts of properties. -/
inductive Part where
  | function
  | hashFunction
  | derivedKeyLength
  | iterations
  | blockSize
  | parallelization
deriving DecidableEq

/-- The part that a key stands for. -/
def part? : String → Option Part
  | "function" => some .function
  | "hashFunction" => some .hashFunction
  | "hash" => some .hashFunction
  | "derivedKeyLength" => some .derivedKeyLength
  | "iterations" => some .iterations
  | "blockSize" => some .blockSize
  | "parallelization" => some .parallelization
  | _ => none

/-- What a part can be given as. -/
def Shows (p : Properties) : Part → Bytes → Prop
  | .function => ShowsText p.function
  | .hashFunction => ShowsText p.hashFunction
  | .derivedKeyLength => ShowsNumber p.derivedKeyLength
  | .iterations => ShowsNumber p.iterations
  | .blockSize => ShowsNumber p.blockSize
  | .parallelization => ShowsNumber p.parallelization

/-- The parts that are there, and so have to be given. -/
def Due (p : Properties) : Part → Prop
  | .function => p.function ≠ none
  | .hashFunction => p.hashFunction ≠ none
  | .derivedKeyLength => p.derivedKeyLength ≠ none
  | .iterations => p.iterations ≠ none
  | .blockSize => p.blockSize ≠ none
  | .parallelization => p.parallelization ≠ none

/-- An object that gives properties. -/
def IsWritten (p : Properties) (bytes : Bytes) : Prop :=
  ∃ members, Gives part? p.Shows p.Due members ∧ IsObject members bytes

/-- The field of a part. -/
def field : Part → Json.Field Properties
  | .function => textField "function" [] fun p value => { p with function := value }
  | .hashFunction => textField "hashFunction" ["hash"] fun p value =>
    { p with hashFunction := value }
  | .derivedKeyLength => numberField "derivedKeyLength" fun p value =>
    { p with derivedKeyLength := value }
  | .iterations => numberField "iterations" fun p value => { p with iterations := value }
  | .blockSize => numberField "blockSize" fun p value => { p with blockSize := value }
  | .parallelization => numberField "parallelization" fun p value =>
    { p with parallelization := value }

theorem find?_eq (key : String) :
    schema.fields.find? (·.answersTo key) = (part? key).map field := by
  rw [part?.eq_def]
  split
  · rfl
  · rfl
  · rfl
  · rfl
  · rfl
  · rfl
  · rfl
  · next hfunction hhashFunction hhash hlength hiterations hblockSize hparallelization =>
    refine List.find?_eq_none.mpr fun field hfield => ?_
    have hsingle : key ∉ ["hash"] := fun h => hhash (List.mem_singleton.mp h)
    simp only [schema, List.mem_cons, List.not_mem_nil, or_false] at hfield
    rcases hfield with rfl | rfl | rfl | rfl | rfl | rfl
    · exact not_answersTo hfunction List.not_mem_nil
    · exact not_answersTo hhashFunction hsingle
    · exact not_answersTo hlength List.not_mem_nil
    · exact not_answersTo hiterations List.not_mem_nil
    · exact not_answersTo hblockSize List.not_mem_nil
    · exact not_answersTo hparallelization List.not_mem_nil

/-- The parts of properties are the parts of their schema. -/
def parts : Parts schema Part where
  part? := part?
  field := field
  find?_eq := find?_eq
  name_injective := by
    intro i j h
    cases i <;> cases j <;> first | rfl | exact absurd h (by decide)

/-! ## Reading -/

/-- The properties that have some parts of others, and nothing else. -/
def only (p : Properties) (seen : List Part) : Properties where
  function := if .function ∈ seen then p.function else none
  hashFunction := if .hashFunction ∈ seen then p.hashFunction else none
  derivedKeyLength := if .derivedKeyLength ∈ seen then p.derivedKeyLength else none
  iterations := if .iterations ∈ seen then p.iterations else none
  blockSize := if .blockSize ∈ seen then p.blockSize else none
  parallelization := if .parallelization ∈ seen then p.parallelization else none

variable {p : Properties} {source : Source} {room : Nat}

theorem takes_textField {seen : List Part} {i : Part} {name : String} {aliases : List String}
    {set : Properties → Option String → Properties} {value : Option String} {bytes : Bytes}
    (hfield : field i = textField name aliases set)
    (hset : p.only (i :: seen) = set (p.only seen) value) (h : ShowsText value bytes) :
    Takes ((field i).read source room (p.only seen)) bytes (p.only (i :: seen)) := by
  rw [hfield, hset]
  exact (takes_showsText source h).map (set (p.only seen))

theorem takes_numberField {seen : List Part} {i : Part} {name : String}
    {set : Properties → Option UInt32 → Properties} {value : Option UInt32} {bytes : Bytes}
    (hfield : field i = numberField name set)
    (hset : p.only (i :: seen) = set (p.only seen) value) (h : ShowsNumber value bytes) :
    Takes ((field i).read source room (p.only seen)) bytes (p.only (i :: seen)) := by
  rw [hfield, hset]
  exact (takes_showsNumber source room h).map (set (p.only seen))

theorem takes_part {seen : List Part} {i : Part} {bytes : Bytes} (h : p.Shows i bytes) :
    Takes ((field i).read source room (p.only seen)) bytes (p.only (i :: seen)) := by
  cases i with
  | function => exact takes_textField (by rw [field]) (by simp [only]) h
  | hashFunction => exact takes_textField (by rw [field]) (by simp [only]) h
  | derivedKeyLength => exact takes_numberField (by rw [field]) (by simp [only]) h
  | iterations => exact takes_numberField (by rw [field]) (by simp [only]) h
  | blockSize => exact takes_numberField (by rw [field]) (by simp [only]) h
  | parallelization => exact takes_numberField (by rw [field]) (by simp [only]) h

theorem only_of_due {seen : List Part} (h : ∀ i, p.Due i → i ∈ seen) : p.only seen = p := by
  obtain ⟨function, hashFunction, derivedKeyLength, iterations, blockSize, parallelization⟩ := p
  simp only [only, Properties.mk.injEq]
  exact ⟨ite_of_due h .rfl, ite_of_due h .rfl, ite_of_due h .rfl, ite_of_due h .rfl,
    ite_of_due h .rfl, ite_of_due h .rfl⟩

/-- **An object that gives properties is read as the properties.** -/
theorem takes {bytes : Bytes} (h : p.IsWritten bytes) :
    Takes (schema.read source (room + 1)) bytes p := by
  obtain ⟨members, hgives, hobject⟩ := h
  exact parts.takes p.only rfl (fun _ _ _ hshows => takes_part hshows)
    (fun _ hseen => only_of_due hseen) hgives hobject

theorem IsWritten.begins {bytes : Bytes} (h : p.IsWritten bytes) : Begins bytes := by
  obtain ⟨members, -, items, -, rest, -, rfl⟩ := h
  exact ⟨openBrace, rest, rfl, .inr (.inr rfl)⟩

/-- The fields of properties are of two sorts. -/
theorem forall_fields {P : Json.Field Properties → Prop}
    (htext : ∀ name aliases set, P (textField name aliases set))
    (hnumber : ∀ name set, P (numberField name set)) : ∀ field ∈ schema.fields, P field := by
  simp only [schema, List.forall_mem_cons, htext, hnumber, true_and]
  exact List.forall_mem_nil _

theorem sound_fields (source : Source) : ∀ field ∈ schema.fields, ∀ room record,
    Sound (field.read source room record) :=
  forall_fields (fun _ _ set _ record => (sound_string source).nullable.map (set record))
    fun _ set room record => (sound_natural source room).nullable.map (set record)

theorem ofJson_of_isWritten {text : String} (h : Alone p.IsWritten (encode text)) :
    ofJson text = .ok p :=
  document_of_alone (fun _ hvalue => takes hvalue) h

/-- **Properties that are read give no part twice.** -/
theorem not_givesTwice {bytes : Bytes} (h : WasRead (schema.read source room) bytes) :
    ¬GivesTwice part? bytes :=
  parts.not_givesTwice (sound_fields source) h

theorem isDocument_of_ofJson {text : String} (h : ofJson text = .ok p) :
    IsDocument (encode text) :=
  Schema.isDocument_of_decode (sound_fields .text) h

end Derivation.Properties

end Strongbox
