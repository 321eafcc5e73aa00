import Strongbox.Proofs.Json.Object

/-!
# Values are judged by themselves

What a reader makes of a value, be it a result or a fault, does not depend on what comes in front of
the value or behind it. So a record is what its elements or members make of it one after the other,
each judged by itself.

## Main definitions

* `Json.judge`: what a reader makes of a value by itself
* `Json.IsLocal`: a reader that judges values by themselves
* `Json.ofSpelling`, `Json.ofNumber`, `Json.ofWhole`: what strings and numbers are as whole numbers
* `Json.fromElements`, `Json.fromMembers`: what elements and members make of a record

## Main results

* `Json.wholeNumber_string`, `Json.wholeNumber_number`, `Json.wholeNumber_other`: whole numbers
* `Json.isLocal_string`, `Json.isLocal_natural`, `IsLocal.nullable`, `IsLocal.refined`: the values
  of fields
* `Json.elements_append`, `Json.members_append`: the elements of an array, the members of an object
* `Schema.isLocal`: records are judged by themselves
-/

namespace Strongbox.Json

open Text.Utf8 (encode)

/-- What a reader makes of a value by itself. -/
def judge {α : Type} (read : Reader α) (value : Bytes) : Except Fault α := (read value).map (·.1)

/-- A reader that judges values by themselves, whatever comes in front of them and behind, and reads
no further. -/
def IsLocal {α : Type} (read : Reader α) : Prop :=
  ∀ ⦃value space rest : Bytes⦄, IsValue value → Blank space → Closes rest →
    read (space ++ value ++ rest) = (judge read value).map fun result => (result, rest)

section

variable {α β : Type} {read : Reader α} {value : Bytes}

/-- What a reader makes of a value whatever is around it, it makes of the value by itself. -/
theorem judge_of_forall {outcome : Except Fault α}
    (h : ∀ space rest, Blank space → Closes rest →
      read (space ++ value ++ rest) = outcome.map fun result => (result, rest)) :
    judge read value = outcome := by
  have halone := h [] [] .nil (Blank.closes .nil)
  rw [List.nil_append, List.append_nil] at halone
  rw [judge, halone]
  cases outcome <;> rfl

theorem judge_of_takes {result : α} (h : Takes read value result) :
    judge read value = .ok result :=
  judge_of_forall fun _ _ hspace hrest => h hspace hrest

theorem IsLocal.takes (h : IsLocal read) {result : α} (hvalue : IsValue value)
    (hjudge : judge read value = .ok result) : Takes read value result := by
  intro space rest hspace hrest
  rw [h hvalue hspace hrest, hjudge]
  rfl

/-- A reader is local if what it makes of a value with something around it is the same whatever
that is. -/
theorem isLocal_of_exists (h : ∀ value, IsValue value → ∃ outcome : Except Fault α,
      ∀ space rest, Blank space → Closes rest →
        read (space ++ value ++ rest) = outcome.map fun result => (result, rest)) :
    IsLocal read := by
  intro value space rest hvalue hspace hrest
  obtain ⟨outcome, houtcome⟩ := h value hvalue
  rw [houtcome space rest hspace hrest, judge_of_forall houtcome]

/-- A value that a reader makes is stored without a look at the bytes. -/
theorem judge_map (read : Reader α) (store : α → β) (value : Bytes) :
    judge (fun s => (read s).map fun (result, rest) => (store result, rest)) value =
      (judge read value).map store := by
  rw [judge, judge]
  cases read value <;> rfl

/-- A document is the value in it. -/
theorem IsLocal.document (h : IsLocal read) (hvalue : IsValue value) {before after : Bytes}
    (hbefore : Blank before) (hafter : Blank after) :
    document read (before ++ value ++ after) = judge read value := by
  have hfinish : finish after = .ok () := by
    have hskip := skipSpace_append hafter []
    rw [List.append_nil] at hskip
    rw [finish, hskip]
    rfl
  rw [Json.document, h hvalue hbefore hafter.closes]
  cases judge read value with
  | error fault => rfl
  | ok result => simp only [Except.map, bind, Except.bind, hfinish, pure, Except.pure]

/-- What is made of all values of a kind, is made of a document with one of them. -/
theorem IsLocal.document_of_alone (h : IsLocal read) {IsKind : Bytes → Prop}
    {outcome : Except Fault α} {data : Bytes}
    (hkind : ∀ value, IsKind value → IsValue value ∧ judge read value = outcome)
    (hdata : Alone IsKind data) : Json.document read data = outcome := by
  obtain ⟨before, value, after, hbefore, hvalue, hafter, rfl⟩ := hdata
  obtain ⟨hvalue, hjudge⟩ := hkind value hvalue
  rw [h.document hvalue hbefore hafter, hjudge]

end

/-! ## How values start -/

section

variable {b : UInt8} {tail : Bytes}

/-- The four kinds of values, by their first byte. -/
theorem IsValue.cases_cons (h : IsValue (b :: tail)) :
    b :: tail ∈ words ∨ (b = quote ∧ ∃ raw, IsContents raw ∧ tail = raw ++ [quote]) ∨
      ((b = minus ∨ isDigit b = true) ∧ IsNumber (b :: tail)) ∨
      ∃ bracket items, b = Bracket.opening bracket ∧ IsItems bracket true items tail := by
  generalize hvalue : b :: tail = value at h
  cases h with
  | word h => exact .inl (hvalue ▸ h)
  | string h =>
    obtain ⟨rfl, rfl⟩ := List.cons.inj hvalue
    exact .inr (.inl ⟨rfl, _, h, rfl⟩)
  | number h =>
    obtain ⟨b', tail', rfl, hb⟩ := h.exists_cons
    obtain ⟨rfl, rfl⟩ := List.cons.inj hvalue
    exact .inr (.inr (.inl ⟨hb, h⟩))
  | bracketed h =>
    obtain ⟨rfl, rfl⟩ := List.cons.inj hvalue
    exact .inr (.inr (.inr ⟨_, _, rfl, h⟩))

/-- The first byte of a word that is a value. -/
theorem mem_of_mem_words (h : b :: tail ∈ words) : b ∈ ([0x6E, 0x74, 0x66] : Bytes) := by
  rw [words_eq, List.mem_cons, List.mem_cons, List.mem_singleton] at h
  rcases h with h | h | h <;> obtain ⟨rfl, -⟩ := List.cons.inj h <;> decide

theorem IsValue.of_quote (h : IsValue (quote :: tail)) :
    ∃ raw, IsContents raw ∧ tail = raw ++ [quote] := by
  rcases h.cases_cons with hword | ⟨-, hstring⟩ | ⟨hb, -⟩ | ⟨bracket, _, hb, -⟩
  · exact absurd (mem_of_mem_words hword) (by decide)
  · exact hstring
  · exact absurd hb (by decide)
  · cases bracket <;> cases hb

theorem IsValue.isNumber (h : IsValue (b :: tail)) (hb : b = minus ∨ isDigit b = true) :
    IsNumber (b :: tail) := by
  rcases h.cases_cons with hword | ⟨rfl, -⟩ | ⟨-, hnumber⟩ | ⟨bracket, _, rfl, -⟩
  · have hmem := mem_of_mem_words hword
    simp only [List.mem_cons, List.not_mem_nil, or_false] at hmem
    rcases hmem with rfl | rfl | rfl <;> exact absurd hb (by decide)
  · exact absurd hb (by decide)
  · exact hnumber
  · cases bracket <;> exact absurd hb (by decide)

theorem IsValue.of_opening {bracket : Bracket} (h : IsValue (bracket.opening :: tail)) :
    ∃ items, IsItems bracket true items tail := by
  rcases h.cases_cons with hword | ⟨hb, -⟩ | ⟨hb, -⟩ | ⟨bracket', items, hb, hitems⟩
  · have hmem := mem_of_mem_words hword
    cases bracket <;> exact absurd hmem (by decide)
  · cases bracket <;> cases hb
  · cases bracket <;> exact absurd hb (by decide)
  · obtain rfl : bracket = bracket' := by
      cases bracket <;> cases bracket' <;> first | rfl | cases hb
    exact ⟨items, hitems⟩

/-- The word that starts as `null` does. -/
theorem IsValue.of_n (h : IsValue (0x6E :: tail)) : tail = ofNull := by
  rcases h.cases_cons with hword | ⟨hb, -⟩ | ⟨hb, -⟩ | ⟨bracket, _, hb, -⟩
  · rw [words_eq, List.mem_cons, List.mem_cons, List.mem_singleton] at hword
    rcases hword with hword | hword | hword
    · exact (List.cons.inj hword).2
    · cases (List.cons.inj hword).1
    · cases (List.cons.inj hword).1
  · cases hb
  · exact absurd hb (by decide)
  · cases bracket <;> cases hb

end

/-! ## The values of fields -/

section

variable (source : Source)

/-- What a value of another kind is called does not depend on what comes after it. -/
theorem foundAt_append {b : UInt8} {tail rest : Bytes} (h : IsValue (b :: tail))
    (hrest : Closes rest) : foundAt source b (tail ++ rest) = foundAt source b tail := by
  rcases h.cases_cons with hword | ⟨rfl, raw, hraw, rfl⟩ | ⟨hb, hnumber⟩ | ⟨bracket, _, rfl, -⟩
  · have hboth (due : Bytes) : word due (due ++ rest) = .ok rest ∧ word due due = .ok [] :=
      ⟨word_append due rest, by simpa using word_append due []⟩
    rw [words_eq, List.mem_cons, List.mem_cons, List.mem_singleton] at hword
    rcases hword with hword | hword | hword <;> obtain ⟨rfl, rfl⟩ := List.cons.inj hword <;>
      simp [foundAt, hboth, Except.map]
  · have hstring (s : Bytes) : foundAt source quote s =
        (text source s).map fun p => .string p.1 := rfl
    rw [hstring, hstring, List.append_assoc, List.singleton_append, text_append source hraw]
    cases text source (raw ++ [quote]) <;> rfl
  · have hnumberRead := number_append hnumber hrest
    have hne {c : UInt8} (hc : c ≠ minus ∧ isDigit c = false) : b ≠ c := ne_of_startsNumber hb hc
    rw [List.cons_append] at hnumberRead
    simp only [foundAt, if_neg (hne (c := 0x6E) (by decide)), if_neg (hne (c := 0x74) (by decide)),
      if_neg (hne (c := 0x66) (by decide)), if_neg (hne (c := quote) (by decide)), if_pos hb,
      hnumberRead]
    cases number (b :: tail) <;> rfl
  · cases bracket <;> rfl

theorem mismatch_append (expected : String) {b : UInt8} {tail rest : Bytes}
    (h : IsValue (b :: tail)) (hrest : Closes rest) :
    mismatch source expected b (tail ++ rest) = mismatch source expected b tail := by
  rw [mismatch, mismatch, foundAt_append source h hrest]

theorem isLocal_string : IsLocal (string source) := by
  apply isLocal_of_exists
  intro value hvalue
  obtain ⟨b, tail, rfl, -⟩ := hvalue.exists_cons
  by_cases hquote : b = quote
  · subst hquote
    obtain ⟨raw, hraw, rfl⟩ := hvalue.of_quote
    refine ⟨judge (text source) (raw ++ [quote]), fun space rest hspace _ => ?_⟩
    rw [string, hvalue.skipSpace hspace, List.cons_append, List.append_assoc]
    simp only [if_true, List.singleton_append, text_append source hraw rest, judge]
    cases text source (raw ++ [quote]) <;> rfl
  · refine ⟨.error (mismatch source "a string" b tail), fun space rest hspace hrest => ?_⟩
    rw [string, hvalue.skipSpace hspace, List.cons_append]
    simp only [if_neg hquote, mismatch_append source _ hvalue hrest]
    rfl

/-- A string is judged to be what it spells. -/
theorem judge_text {s : String} {raw : Bytes} (h : SpellsText s.toList raw) :
    judge (text source) (raw ++ [quote]) = .ok s := by
  rw [judge, text_of_spells h]
  rfl

/-- The whole number that a string spells. -/
def ofSpelling (spelling : String) : Except Fault Nat :=
  match spelledNatural? spelling with
  | some n => .ok n
  | none => .error (.invalidInteger spelling)

/-- The whole number that a number is. -/
def ofNumber : Number → Except Fault Nat
  | .natural n => .ok n
  | _ => .error .neitherNumberNorString

/-- A whole number as one of 32 bits. -/
def ofWhole (n : Nat) : Except Fault UInt32 :=
  if n < UInt32.size then .ok n.toUInt32 else .error (.integerOutOfRange n)

section

variable {source} (room : Nat) {space rest : Bytes}

theorem wholeNumber_string {raw : Bytes} (h : IsContents raw) (hspace : Blank space)
    (rest : Bytes) : wholeNumber source room (space ++ (quote :: (raw ++ [quote])) ++ rest) =
      ((judge (text source) (raw ++ [quote])).bind ofSpelling).map fun n => (n, rest) := by
  rw [wholeNumber, (IsValue.string h).skipSpace hspace, List.cons_append, List.append_assoc]
  simp only [if_true, List.singleton_append, text_append source h rest, judge]
  cases text source (raw ++ [quote]) with
  | error fault => rfl
  | ok p =>
    simp only [Except.map, Except.bind, ofSpelling]
    cases spelledNatural? p.1 <;> rfl

theorem wholeNumber_number {bytes : Bytes} (h : IsNumber bytes) (hspace : Blank space)
    (hrest : Closes rest) : wholeNumber source room (space ++ bytes ++ rest) =
      ((judge number bytes).bind ofNumber).map fun n => (n, rest) := by
  have hread := number_append h hrest
  have hskip := (IsValue.number h).skipSpace hspace rest
  obtain ⟨b, tail, rfl, hb⟩ := h.exists_cons
  have hquote : b ≠ quote := ne_of_startsNumber hb (by decide)
  rw [wholeNumber, hskip]
  rw [List.cons_append] at hread ⊢
  simp only [if_neg hquote, if_pos hb, hread, judge]
  cases number (b :: tail) with
  | error fault => rfl
  | ok p =>
    simp only [Except.map, Except.bind]
    cases p.1 <;> rfl

/-- A value of another kind is walked over before it is refused. -/
theorem wholeNumber_other {tree : Tree} {b : UInt8} {tail : Bytes} (h : Written tree (b :: tail))
    (hquote : b ≠ quote) (hnumber : ¬(b = minus ∨ isDigit b = true)) (hspace : Blank space)
    (hrest : Closes rest) : wholeNumber source room (space ++ (b :: tail) ++ rest) =
      (tree.check (.strict source room) []).bind fun _ => .error .neitherNumberNorString := by
  have hwalk := h.walk_append (.strict source room) Blank.nil hrest
  rw [wholeNumber, h.isValue.skipSpace hspace]
  rw [List.nil_append, List.cons_append] at hwalk
  rw [List.cons_append]
  simp only [if_neg hquote, if_neg hnumber, hwalk]
  cases tree.check (.strict source room) [] <;> rfl

end

theorem isLocal_wholeNumber (room : Nat) : IsLocal (wholeNumber source room) := by
  apply isLocal_of_exists
  intro value hvalue
  obtain ⟨b, tail, rfl, -⟩ := hvalue.exists_cons
  by_cases hquote : b = quote
  · subst hquote
    obtain ⟨raw, hraw, rfl⟩ := hvalue.of_quote
    exact ⟨_, fun space rest hspace _ => wholeNumber_string room hraw hspace rest⟩
  by_cases hnumber : b = minus ∨ isDigit b = true
  · exact ⟨_, fun space rest hspace hrest =>
      wholeNumber_number room (hvalue.isNumber hnumber) hspace hrest⟩
  · obtain ⟨tree, htree⟩ := hvalue.exists_written
    refine ⟨(tree.check (.strict source room) []).bind fun _ => .error .neitherNumberNorString,
      fun space rest hspace hrest => ?_⟩
    rw [wholeNumber_other room htree hquote hnumber hspace hrest]
    cases tree.check (.strict source room) [] <;> rfl

/-- A whole number that is read has to fit into 32 bits. -/
theorem natural_eq (room : Nat) (s : Bytes) : natural source room s =
    (wholeNumber source room s).bind fun p => (ofWhole p.1).map fun n => (n, p.2) := by
  rw [natural]
  cases wholeNumber source room s with
  | error fault => rfl
  | ok p =>
    simp only [Except.bind, ofWhole]
    by_cases hn : p.1 < UInt32.size
    · rw [if_pos hn, if_pos hn]
      rfl
    · rw [if_neg hn, if_neg hn]
      rfl

theorem judge_natural (room : Nat) (value : Bytes) : judge (natural source room) value =
    (judge (wholeNumber source room) value).bind ofWhole := by
  rw [judge, judge, natural_eq]
  cases wholeNumber source room value with
  | error fault => rfl
  | ok p =>
    simp only [Except.map, Except.bind]
    cases ofWhole p.1 <;> rfl

theorem isLocal_natural (room : Nat) : IsLocal (natural source room) := by
  intro value space rest hvalue hspace hrest
  rw [natural_eq, isLocal_wholeNumber source room hvalue hspace hrest, judge_natural]
  cases judge (wholeNumber source room) value <;> rfl

end

section

variable {α β : Type} {read : Reader α}

theorem IsLocal.map (h : IsLocal read) (store : α → β) :
    IsLocal fun s => (read s).map fun (value, rest) => (store value, rest) := by
  apply isLocal_of_exists
  intro value hvalue
  refine ⟨(judge read value).map store, fun space rest hspace hrest => ?_⟩
  show (read _).map _ = _
  rw [h hvalue hspace hrest]
  cases judge read value <;> rfl

theorem IsLocal.nullable (h : IsLocal read) : IsLocal (Json.nullable read) := by
  apply isLocal_of_exists
  intro value hvalue
  obtain ⟨b, tail, rfl, -⟩ := hvalue.exists_cons
  by_cases hnull : b = 0x6E
  · subst hnull
    obtain rfl := hvalue.of_n
    refine ⟨.ok none, fun space rest hspace _ => ?_⟩
    rw [Json.nullable, hvalue.skipSpace hspace, List.cons_append]
    simp only [if_true, word_append]
    rfl
  · refine ⟨(judge read (b :: tail)).map some, fun space rest hspace hrest => ?_⟩
    have hread := h hvalue Blank.nil hrest
    rw [List.nil_append] at hread
    rw [Json.nullable, hvalue.skipSpace hspace]
    rw [List.cons_append] at hread ⊢
    simp only [if_neg hnull, hread]
    cases judge read (b :: tail) <;> rfl

/-- A value that is not `null`. -/
theorem judge_nullable {value : Bytes} (h : IsValue value) (hne : value ≠ encode "null") :
    judge (Json.nullable read) value = (judge read value).map some := by
  have hskip := h.skipSpace Blank.nil []
  rw [List.nil_append, List.append_nil] at hskip
  obtain ⟨b, tail, rfl, -⟩ := h.exists_cons
  have hb : b ≠ 0x6E := by
    rintro rfl
    exact hne (congrArg (List.cons 0x6E) h.of_n)
  rw [judge, judge, Json.nullable, hskip]
  simp only [if_neg hb]
  cases read (b :: tail) <;> rfl

theorem IsLocal.refined {make : α → Except String β} (h : IsLocal read) :
    IsLocal (Json.refined read make) := by
  apply isLocal_of_exists
  intro value hvalue
  refine ⟨(judge read value).bind fun result => (make result).mapError .refused,
    fun space rest hspace hrest => ?_⟩
  rw [Json.refined, h hvalue hspace hrest]
  cases judge read value with
  | error fault => rfl
  | ok result =>
    simp only [Except.map, Except.bind]
    cases make result <;> rfl

end

/-! ## What elements and members make of a record -/

section

variable {α : Type} (fields : List (Field α)) (source : Source) (room : Nat)

/-- What the elements of an array make of a record: each goes into the field of its place. -/
def fromElements : List (Field α) → α → List Bytes → Except Fault α
  | _, record, [] => .ok record
  | [], _, _ :: _ => .error .trailingCharacters
  | field :: fields, record, value :: values => do
    let record ← judge (field.read source room record) value
    fromElements fields record values

/-- What the members of an object make of a record, their keys as they are written: each goes into
the field its key belongs to, unless that was given before, or is left out. -/
def fromMembers : (seen : List String) → α → List (Bytes × Bytes) → Except Fault α
  | _, record, [] => .ok record
  | seen, record, (raw, value) :: items => do
    let key ← judge (text source) (raw ++ [quote])
    match fields.find? (·.answersTo key) with
    | none => fromMembers seen record items
    | some field =>
      if field.name ∈ seen then .error (.duplicateField field.name)
      else do
        let record ← judge (field.read source room record) value
        fromMembers (field.name :: seen) record items

end

section

variable {α : Type} {fields : List (Field α)} {source : Source} {room : Nat}

/-- What comes in front of an element is left out. -/
theorem elements_cons {field : Field α} {first : Bool} {lead value : Bytes}
    (hlead : Leads first lead) (hvalue : IsValue value) (record : α) (s : Bytes) :
    elements source room (field :: fields) first record (lead ++ value ++ s) =
      field.read source room record (value ++ s) >>= fun p =>
        elements source room fields false p.1 p.2 := by
  obtain ⟨b, tail, rfl, hspace, hb⟩ := hvalue.exists_cons
  have hclose : b ≠ closeBracket := by
    rintro rfl
    exact hb (by decide)
  rw [elements]
  cases hlead with
  | first h =>
    rw [hvalue.skipSpace h, List.cons_append]
    simp only [if_neg hclose, if_true]
    cases field.read source room record (b :: (tail ++ s)) <;> rfl
  | @next before after h h' =>
    have hskip : skipSpace (before ++ comma :: after ++ b :: tail ++ s) =
        comma :: (after ++ b :: tail ++ s) := by
      simp only [List.append_assoc, List.cons_append]
      rw [skipSpace_append h, skipSpace_cons rfl]
    have hcomma : comma ≠ closeBracket := by decide
    have hskip' := hvalue.skipSpace h' s
    rw [List.cons_append] at hskip'
    rw [hskip]
    simp only [if_neg hcomma, Bool.false_eq_true, if_false, if_true, hskip', if_neg hclose,
      List.cons_append]
    cases field.read source room record (b :: (tail ++ s)) <;> rfl

/-- With every field given, an element too many is told. -/
theorem endOfArray_lead {first : Bool} {lead value : Bytes} (hlead : Leads first lead)
    (hvalue : IsValue value) (s : Bytes) :
    endOfArray (lead ++ value ++ s) = .error .trailingCharacters := by
  obtain ⟨b, tail, rfl, hspace, hb⟩ := hvalue.exists_cons
  have hclose : b ≠ closeBracket := by
    rintro rfl
    exact hb (by decide)
  rw [endOfArray]
  cases hlead with
  | first h =>
    have hcomma : b ≠ comma := by
      rintro rfl
      exact hb (by decide)
    rw [hvalue.skipSpace h, List.cons_append]
    simp only [if_neg hclose, hcomma, false_and, if_false]
  | @next before after h h' =>
    have hskip : skipSpace (before ++ comma :: after ++ b :: tail ++ s) =
        comma :: (after ++ b :: tail ++ s) := by
      simp only [List.append_assoc, List.cons_append]
      rw [skipSpace_append h, skipSpace_cons rfl]
    have hcomma : comma ≠ closeBracket := by decide
    have hhead : (skipSpace (after ++ b :: tail ++ s)).head? ≠ some closeBracket := by
      rw [hvalue.skipSpace h', List.cons_append]
      rintro ⟨⟩
      exact hclose rfl
    rw [hskip]
    simp only [if_neg hcomma, hhead, and_false, if_false]

/-- **The elements of an array** are judged one after the other, up to the end of the array. -/
theorem elements_append (hfields : ∀ field ∈ fields, ∀ record,
      IsLocal (field.read source room record)) {first : Bool} {items : List (Bytes × Bytes)}
    {bytes : Bytes} (h : IsItems .square first items bytes) (record : α) (rest : Bytes) :
    elements source room fields first record (bytes ++ rest) =
      (fromElements source room fields record (items.map (·.2))).map fun record =>
        (record, rest) := by
  -- by the fields that are left, for elements may be fewer or more
  induction fields generalizing first items bytes record with
  | nil =>
    cases h with
    | nil hspace =>
      rw [elements, endOfArray, List.append_assoc, skipSpace_append hspace]
      rfl
    | cons hfront hvalue _ =>
      cases hfront with
      | square hlead =>
        rw [elements, List.append_assoc, endOfArray_lead hlead hvalue]
        rfl
  | cons field fields ih =>
    cases h with
    | nil hspace =>
      rw [elements, List.append_assoc, skipSpace_append hspace]
      rfl
    | @cons _ _ _ _ value tail items hfront hvalue hitems =>
      obtain ⟨hfield, hfields⟩ := List.forall_mem_cons.mp hfields
      cases hfront with
      | square hlead =>
        have hread := hfield record hvalue Blank.nil (hitems.closes rest)
        rw [List.nil_append] at hread
        rw [List.append_assoc, elements_cons hlead hvalue, hread, List.map_cons, fromElements]
        cases judge (field.read source room record) value with
        | error fault => rfl
        | ok record => exact ih hfields hitems record

/-- **The members of an object** are judged one after the other, up to the end of the object. -/
theorem members_append (hfields : ∀ field ∈ fields, ∀ record,
      IsLocal (field.read source room record)) {first : Bool} {items : List (Bytes × Bytes)}
    {bytes : Bytes} (h : IsItems .curly first items bytes) (seen : List String) (record : α)
    (rest : Bytes) :
    members fields source room first seen record (bytes ++ rest) =
      (fromMembers fields source room seen record items).map fun record => (record, rest) := by
  induction items generalizing first bytes seen record with
  | nil =>
    cases h with
    | nil hspace =>
      rw [List.append_assoc]
      exact members_of_end (memberKey_end hspace rest)
  | cons item items ih =>
    cases h with
    | @cons _ _ raw front value tail _ hfront hvalue hitems =>
    cases hfront with
    | @curly _ lead _ before after hlead hraw hbefore hafter =>
    have hkey (s : Bytes) : memberKey source first (lead ++ quote :: (raw ++ quote :: s)) =
        (judge (text source) (raw ++ [quote])).map fun key => (some key, s) := by
      rw [memberKey_lead hlead, text_append source hraw, judge]
      cases text source (raw ++ [quote]) <;> rfl
    rw [member_append, fromMembers]
    cases hjudge : judge (text source) (raw ++ [quote]) with
    | error fault =>
      simp only [hjudge] at hkey
      exact members_of_fault (hkey _)
    | ok key =>
      simp only [hjudge] at hkey
      rw [members_of_key (hkey _) (afterColon_append hbefore _)]
      simp only [bind, Except.bind]
      cases hfind : fields.find? (·.answersTo key) with
      | none =>
        simp only [hvalue.walk_append hafter (hitems.closes rest)]
        exact ih hitems seen record
      | some field =>
        by_cases hseen : field.name ∈ seen
        · simp only [if_pos hseen]
          rfl
        simp only [if_neg hseen]
        rw [hfields field (List.mem_of_find?_eq_some hfind) record hvalue hafter
          (hitems.closes rest)]
        cases judge (field.read source room record) value with
        | error fault => rfl
        | ok record => exact ih hitems (field.name :: seen) record

namespace Schema

variable {schema : Schema α} {items : List (Bytes × Bytes)} {space bytes : Bytes}

/-- A record in an array. -/
theorem read_array (hfields : ∀ field ∈ schema.fields, ∀ room record,
      IsLocal (field.read source room record)) (h : IsItems .square true items bytes)
    (hspace : Blank space) (rest : Bytes) :
    schema.read source room (space ++ openBracket :: bytes ++ rest) =
      (if room = 0 then .error .recursionLimit
        else fromElements source (room - 1) schema.fields schema.initial
          (items.map (·.2))).map fun record => (record, rest) := by
  have hskip : skipSpace (space ++ openBracket :: bytes ++ rest) = openBracket :: (bytes ++ rest) :=
    (IsValue.bracketed h).skipSpace hspace rest
  rw [Schema.read, hskip]
  simp only [if_true]
  by_cases hroom : room = 0
  · rw [if_pos hroom, if_pos hroom]
    rfl
  · rw [if_neg hroom, if_neg hroom]
    exact elements_append (fun field hfield => hfields field hfield _) h schema.initial rest

/-- A record in an object. -/
theorem read_object (hfields : ∀ field ∈ schema.fields, ∀ room record,
      IsLocal (field.read source room record)) (h : IsItems .curly true items bytes)
    (hspace : Blank space) (rest : Bytes) :
    schema.read source room (space ++ openBrace :: bytes ++ rest) =
      (if room = 0 then .error .recursionLimit
        else fromMembers schema.fields source (room - 1) [] schema.initial
          items).map fun record => (record, rest) := by
  have hskip : skipSpace (space ++ openBrace :: bytes ++ rest) = openBrace :: (bytes ++ rest) :=
    (IsValue.bracketed h).skipSpace hspace rest
  have hne : openBrace ≠ openBracket := by decide
  rw [Schema.read, hskip]
  simp only [if_neg hne, if_true]
  by_cases hroom : room = 0
  · rw [if_pos hroom, if_pos hroom]
    rfl
  · rw [if_neg hroom, if_neg hroom]
    exact members_append (fun field hfield => hfields field hfield _) h [] schema.initial rest

/-- **Records are judged by themselves**, if the values of their fields are. -/
theorem isLocal (hfields : ∀ field ∈ schema.fields, ∀ room record,
    IsLocal (field.read source room record)) : IsLocal (schema.read source room) := by
  apply isLocal_of_exists
  intro value hvalue
  obtain ⟨b, tail, rfl, -⟩ := hvalue.exists_cons
  by_cases harray : b = openBracket
  · subst harray
    have hopening : IsValue (Bracket.square.opening :: tail) := hvalue
    obtain ⟨items, hitems⟩ := hopening.of_opening
    exact ⟨_, fun space rest hspace _ => read_array hfields hitems hspace rest⟩
  by_cases hobject : b = openBrace
  · subst hobject
    have hopening : IsValue (Bracket.curly.opening :: tail) := hvalue
    obtain ⟨items, hitems⟩ := hopening.of_opening
    exact ⟨_, fun space rest hspace _ => read_object hfields hitems hspace rest⟩
  · refine ⟨.error (mismatch source ("struct " ++ schema.name) b tail),
      fun space rest hspace hrest => ?_⟩
    rw [Schema.read, hvalue.skipSpace hspace, List.cons_append]
    simp only [if_neg harray, if_neg hobject, mismatch_append source _ hvalue hrest]
    rfl

end Schema

end

end Strongbox.Json
