import Strongbox.Json.Walk
import Strongbox.Text.Blank
/-!
# Records

A record is written as an object, whose members may come in any order and may be left out, or as
an array, whose elements are the first few fields in the order of the schema. Members of an object
that are no fields are walked over.

## Main definitions

* `Json.string`, `Json.nullable`, `Json.natural`: readers of the values of fields
* `Json.refined`: a reader of values that may be refused
* `Json.Field`: a field of a record
* `Json.Schema`: the fields of a record and what it is without any
* `Schema.read`: the reader of a record
* `Json.maxNesting`: how many brackets may be open at once

## Main results

* `Schema.length_of_read`: how much is left
-/

namespace Strongbox.Json

/-- How many brackets may be open at once, those of the document included. -/
def maxNesting : Nat := 127

/-- The value that starts with the byte `b`, as it is called where another kind was expected. What
is wrong in a word, number or string itself comes first; arrays and objects are not looked into. -/
def foundAt (source : Source) (b : UInt8) (s : Bytes) : Except Fault Found :=
  if b = 0x6E then (word ofNull s).map fun _ => .null
  else if b = 0x74 then (word ofTrue s).map fun _ => .bool true
  else if b = 0x66 then (word ofFalse s).map fun _ => .bool false
  else if b = quote then (text source s).map fun (value, _) => .string value
  else if b = minus ∨ isDigit b then (number (b :: s)).map fun (value, _) => value.found
  else if b = openBracket then .ok .sequence
  else if b = openBrace then .ok .map
  else .error .expectedValue

/-- The fault of a value that starts with the byte `b` and is not of the expected kind. -/
def mismatch (source : Source) (expected : String) (b : UInt8) (s : Bytes) : Fault :=
  match foundAt source b s with
  | .ok found => .wrongKind found expected
  | .error fault => fault

/-- A string. -/
def string (source : Source) : Reader String := fun s =>
  match skipSpace s with
  | [] => .error .endInValue
  | b :: rest =>
    if b = quote then text source rest else .error (mismatch source "a string" b rest)

/-- A value that may be `null`. -/
def nullable {α : Type} (read : Reader α) : Reader (Option α) := fun s =>
  match skipSpace s with
  | [] => .error .endInValue
  | b :: rest =>
    if b = 0x6E then (word ofNull rest).map fun rest => (none, rest)
    else (read (b :: rest)).map fun (value, rest) => (some value, rest)

/-- A value made of another one, which may be refused. -/
def refined {α β : Type} (read : Reader α) (make : α → Except String β) : Reader β := fun s =>
  match read s with
  | .error fault => .error fault
  | .ok (value, rest) =>
    match make value with
    | .ok made => .ok (made, rest)
    | .error reason => .error (.refused reason)

/-- The number that a string of decimal digits spells, if it is below `2 ^ 64`. A plus sign may
stand in front, and blanks around. -/
def spelledNatural? (spelling : String) : Option Nat :=
  let cs := Text.trimChars spelling.toList
  let ds := if cs.head? = some '+' then cs.tail else cs
  if ds ≠ [] ∧ ds.all Char.isDigit then
    let value := ds.foldl (fun n c => 10 * n + (c.toNat - '0'.toNat)) 0
    if value < UInt64.size then some value else none
  else none

/-- A whole number that is not negative, or a string that spells one. A value of any other kind is
read to its end before it is refused; `room` is how many brackets may be open in it. -/
def wholeNumber (source : Source) (room : Nat) : Reader Nat := fun s =>
  match skipSpace s with
  | [] => .error .endInValue
  | b :: rest =>
    if b = quote then
      match text source rest with
      | .error fault => .error fault
      | .ok (spelling, rest) =>
        match spelledNatural? spelling with
        | some value => .ok (value, rest)
        | none => .error (.invalidInteger spelling)
    else if b = minus ∨ isDigit b then
      match number (b :: rest) with
      | .error fault => .error fault
      | .ok (.natural value, rest) => .ok (value, rest)
      | .ok (_, _) => .error .neitherNumberNorString
    else
      match walk (.strict source room) (b :: rest) with
      | .error fault => .error fault
      | .ok _ => .error .neitherNumberNorString

/-- A whole number below `2 ^ 32`, or a string that spells one. -/
def natural (source : Source) (room : Nat) : Reader UInt32 := fun s =>
  match wholeNumber source room s with
  | .error fault => .error fault
  | .ok (value, rest) =>
    if value < UInt32.size then .ok (value.toUInt32, rest) else .error (.integerOutOfRange value)

theorem length_of_string {source : Source} {s rest : Bytes} {value : String}
    (h : string source s = .ok (value, rest)) : rest.length < s.length := by
  unfold string at h
  split at h
  · cases h
  · next b r hr =>
    have := length_of_skipSpace hr
    split at h
    · have := length_of_text h
      omega
    · cases h

theorem length_of_nullable {α : Type} {read : Reader α}
    (hread : ∀ {s value rest}, read s = .ok (value, rest) → rest.length < s.length)
    {s rest : Bytes} {value : Option α} (h : nullable read s = .ok (value, rest)) :
    rest.length < s.length := by
  unfold nullable at h
  split at h
  · cases h
  · next b r hr =>
    have := length_of_skipSpace hr
    split at h
    · cases h₁ : word ofNull r with
      | error _ => simp [h₁, Except.map] at h
      | ok t =>
        have := length_of_word h₁
        simp only [h₁, Except.map, Except.ok.injEq, Prod.mk.injEq] at h
        rw [← h.2]
        omega
    · cases h₁ : read (b :: r) with
      | error _ => simp [h₁, Except.map] at h
      | ok p =>
        have := hread h₁
        simp only [h₁, Except.map, Except.ok.injEq, Prod.mk.injEq] at h
        rw [← h.2]
        simp only [List.length_cons] at this
        omega

theorem length_of_refined {α β : Type} {read : Reader α} {make : α → Except String β}
    (hread : ∀ {s value rest}, read s = .ok (value, rest) → rest.length < s.length)
    {s rest : Bytes} {made : β} (h : refined read make s = .ok (made, rest)) :
    rest.length < s.length := by
  unfold refined at h
  split at h
  · cases h
  · next value r hr =>
    split at h <;> cases h
    exact hread hr

theorem length_of_natural {source : Source} {room : Nat} {s rest : Bytes} {value : UInt32}
    (h : natural source room s = .ok (value, rest)) : rest.length < s.length := by
  unfold natural at h
  split at h
  · cases h
  · next n r hn =>
    split at h
    · cases h
      unfold wholeNumber at hn
      split at hn
      · cases hn
      · next b t ht =>
        have := length_of_skipSpace ht
        split at hn
        · split at hn
          · cases hn
          · next spelling u hu =>
            have := length_of_text hu
            split at hn
            · cases hn
              omega
            · cases hn
        · split at hn
          · split at hn
            · cases hn
            · next v u hu =>
              have := length_of_number hu
              simp only [List.length_cons] at this
              cases hn
              omega
            · cases hn
          · split at hn <;> cases hn
    · cases h

/-- A field of a record of type `α`. -/
structure Field (α : Type) where
  /-- The name of the field. -/
  name : String
  /-- Other names it goes by. -/
  aliases : List String
  /-- Reads the field's value and stores it in a record; `room` is how many brackets may be open
  in the value. -/
  read : (source : Source) → (room : Nat) → α → Reader α
  /-- Reading a value takes a byte at least. -/
  length_of_read : ∀ {source room record s record' rest},
    read source room record s = .ok (record', rest) → rest.length < s.length

/-- Whether a field goes by a name. -/
def Field.answersTo {α : Type} (key : String) (field : Field α) : Bool :=
  field.name = key || field.aliases.contains key

/-- The fields of a record of type `α`, and what it is when none is given. -/
structure Schema (α : Type) where
  /-- What a record is called. -/
  name : String
  /-- The record without any field given. -/
  initial : α
  /-- The fields, in the order of the array. -/
  fields : List (Field α)

/-- The next key of an object that is read as a record, or its end. -/
def memberKey (source : Source) (first : Bool) (s : Bytes) :
    Except Fault (Option String × Bytes) :=
  match skipSpace s with
  | [] => .error .endInObject
  | b :: rest =>
    if b = closeBrace then .ok (none, rest)
    else if first then
      if b = quote then (text source rest).map fun (key, rest) => (some key, rest)
      else .error .keyNotString
    else if b = comma then
      match (Care.strict source 0).nextKey rest with
      | .error fault => .error fault
      | .ok rest => (text source rest).map fun (key, rest) => (some key, rest)
    else .error .expectedCommaOrBrace

theorem length_of_memberKey {source : Source} {first : Bool} {s rest : Bytes}
    {key : Option String} (h : memberKey source first s = .ok (key, rest)) :
    rest.length < s.length := by
  have key_text : ∀ {t : Bytes}, t.length ≤ s.length →
      (text source t).map (fun (key, rest) => (some key, rest)) = .ok (key, rest) →
      rest.length < s.length := by
    intro t ht h
    cases h₁ : text source t with
    | error _ => simp [h₁, Except.map] at h
    | ok p =>
      have := length_of_text h₁
      simp only [h₁, Except.map, Except.ok.injEq, Prod.mk.injEq] at h
      rw [← h.2]
      omega
  unfold memberKey at h
  split at h
  · cases h
  · next b r hr =>
    have hlt := length_of_skipSpace hr
    split at h
    · cases h
      exact hlt
    split at h
    · split at h
      · exact key_text (Nat.le_of_lt hlt) h
      · cases h
    split at h
    · split at h
      · cases h
      · next t ht =>
        have := Care.length_of_nextKey ht
        exact key_text (by omega) h
    · cases h

/-- The members of an object that is read as a record, and its end; `seen` are the names of the
fields already given. -/
def members {α : Type} (fields : List (Field α)) (source : Source) (room : Nat) (first : Bool)
    (seen : List String) (record : α) (s : Bytes) : Except Fault (α × Bytes) :=
  match _hkey : memberKey source first s with
  | .error fault => .error fault
  | .ok (none, rest) => .ok (record, rest)
  | .ok (some key, rest) =>
    match fields.find? (·.answersTo key) with
    | none =>
      match _hcolon : afterColon rest with
      | .error fault => .error fault
      | .ok rest =>
        match _hvalue : walk .lax rest with
        | .error fault => .error fault
        | .ok rest => members fields source room false seen record rest
    | some field =>
      if field.name ∈ seen then .error (.duplicateField field.name)
      else
        match _hcolon : afterColon rest with
        | .error fault => .error fault
        | .ok rest =>
          match _hvalue : field.read source room record rest with
          | .error fault => .error fault
          | .ok (record, rest) =>
            members fields source room false (field.name :: seen) record rest
termination_by s.length
decreasing_by
  · have := length_of_memberKey _hkey
    have := length_of_afterColon _hcolon
    have := length_of_walk _hvalue
    omega
  · have := length_of_memberKey _hkey
    have := length_of_afterColon _hcolon
    have := field.length_of_read _hvalue
    omega

/-- The end of an array in which every field is given. -/
def endOfArray (s : Bytes) : Except Fault Bytes :=
  match skipSpace s with
  | [] => .error .endInList
  | b :: rest =>
    if b = closeBracket then .ok rest
    else if b = comma ∧ (skipSpace rest).head? = some closeBracket then .error .trailingComma
    else .error .trailingCharacters

/-- The elements of an array that is read as a record, and its end. -/
def elements {α : Type} (source : Source) (room : Nat) :
    List (Field α) → (first : Bool) → α → Reader α
  | [], _, record, s => (endOfArray s).map fun rest => (record, rest)
  | field :: fields, first, record, s =>
    match skipSpace s with
    | [] => .error .endInList
    | b :: rest =>
      if b = closeBracket then .ok (record, rest)
      else
        let start : Except Fault Bytes :=
          if first then .ok (b :: rest)
          else if b = comma then
            match skipSpace rest with
            | [] => .error .endInValue
            | c :: rest => if c = closeBracket then .error .trailingComma else .ok (c :: rest)
          else .error .expectedCommaOrBracket
        match start with
        | .error fault => .error fault
        | .ok s =>
          match field.read source room record s with
          | .error fault => .error fault
          | .ok (record, rest) => elements source room fields false record rest

/-- A record, written as an object or as an array; `room` is how many brackets may be open in it,
its own included. -/
def Schema.read {α : Type} (schema : Schema α) (source : Source) (room : Nat) : Reader α :=
  fun s =>
    match skipSpace s with
    | [] => .error .endInValue
    | b :: rest =>
      if b = openBracket then
        if room = 0 then .error .recursionLimit
        else elements source (room - 1) schema.fields true schema.initial rest
      else if b = openBrace then
        if room = 0 then .error .recursionLimit
        else members schema.fields source (room - 1) true [] schema.initial rest
      else .error (mismatch source ("struct " ++ schema.name) b rest)

theorem length_of_members {α : Type} {fields : List (Field α)} {source : Source} {room : Nat}
    {first : Bool} {seen : List String} {record record' : α} {s rest : Bytes}
    (h : members fields source room first seen record s = .ok (record', rest)) :
    rest.length < s.length := by
  fun_induction members fields source room first seen record s with
  | case1 => cases h
  | case2 first seen record s rest hkey =>
    cases h
    exact length_of_memberKey hkey
  | case3 => cases h
  | case4 => cases h
  | case5 first seen record s key r₁ hkey _ r₂ hcolon r₃ hvalue ih =>
    have := length_of_memberKey hkey
    have := length_of_afterColon hcolon
    have := length_of_walk hvalue
    have := ih h
    omega
  | case6 => cases h
  | case7 => cases h
  | case8 => cases h
  | case9 first seen record s key r₁ hkey field _ _ r₂ hcolon record₂ r₃ hvalue ih =>
    have := length_of_memberKey hkey
    have := length_of_afterColon hcolon
    have := field.length_of_read hvalue
    have := ih h
    omega

theorem length_of_endOfArray {s rest : Bytes} (h : endOfArray s = .ok rest) :
    rest.length < s.length := by
  unfold endOfArray at h
  split at h
  · cases h
  · next b r hr =>
    split at h
    · cases h
      exact length_of_skipSpace hr
    · split at h <;> cases h

theorem length_of_elements {α : Type} {source : Source} {room : Nat} {fields : List (Field α)}
    {first : Bool} {record record' : α} {s rest : Bytes}
    (h : elements source room fields first record s = .ok (record', rest)) :
    rest.length < s.length := by
  induction fields generalizing first record s with
  | nil =>
    simp only [elements] at h
    cases h₁ : endOfArray s with
    | error _ => simp [h₁, Except.map] at h
    | ok t =>
      simp only [h₁, Except.map, Except.ok.injEq, Prod.mk.injEq] at h
      exact h.2 ▸ length_of_endOfArray h₁
  | cons field fields ih =>
    simp only [elements] at h
    split at h
    · cases h
    · next b r hr =>
      have hlt := length_of_skipSpace hr
      split at h
      · cases h
        exact hlt
      · split at h
        · cases h
        · next t ht =>
          split at h
          · cases h
          · next record₂ u hu =>
            have := field.length_of_read hu
            have := ih h
            have : t.length ≤ s.length := by
              split at ht
              · cases ht
                exact hlt
              · split at ht
                · split at ht
                  · cases ht
                  · next c v hv =>
                    have := length_of_skipSpace hv
                    split at ht
                    · cases ht
                    · cases ht
                      simp only [List.length_cons]
                      omega
                · cases ht
            omega

/-- Reading a record takes a byte at least. -/
theorem Schema.length_of_read {α : Type} {schema : Schema α} {source : Source} {room : Nat}
    {s rest : Bytes} {record : α} (h : schema.read source room s = .ok (record, rest)) :
    rest.length < s.length := by
  unfold Schema.read at h
  split at h
  · cases h
  · next b r hr =>
    have hlt := length_of_skipSpace hr
    split at h
    · split at h
      · cases h
      · have := length_of_elements h
        omega
    · split at h
      · split at h
        · cases h
        · have := length_of_members h
          omega
      · cases h

/-- A document that holds a record and nothing else. -/
def Schema.decode {α : Type} (schema : Schema α) (source : Source) (s : Bytes) : Except Fault α :=
  document (schema.read source maxNesting) s

end Strongbox.Json
