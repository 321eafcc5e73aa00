import Strongbox.Json.Walk
import Strongbox.Proofs.Json.Spelling

/-!
# The grammar of JSON

Which byte strings are values, over bytes: the characters of a string need not be UTF-8, and four
digits of an escape need not name a character. Nothing here depends on what a value is read for, nor
on how large a number is or how deep brackets nest.

Arrays and objects have one grammar between them, since they differ in no more than their brackets
and in that every member of an object has a key. An element of an array has the empty one.

## Main definitions

* `Json.IsContents`: what stands between the quotes of a string
* `Json.IsNumber`: numbers
* `Json.Fronts`: what comes in front of an element or member
* `Json.IsValue`, `Json.IsItems`: values, and what is left of an array or object
* `Json.IsDocument`: an array or object with white space around it

## Main results

* `SpellsText.isContents`: every spelling of a text can stand in a string
* `IsValue.exists_cons`: how a value starts
* `IsItems.closes`: a value can stand in front of what is left of an array or object
* `Spells.isValue`: what is written of a document is a value, however it is laid out
-/

namespace Strongbox.Json

open Text.Utf8 (encode encodeChars)

/-! ## Strings -/

/-- An escape. -/
inductive IsEscape : Bytes → Prop where
  | letter {b : UInt8} {c : Char} (h : (b, c) ∈ letters) : IsEscape [backslash, b]
  | unit {unit : Nat} {bytes : Bytes} (h : SpellsUnit unit bytes) :
    IsEscape (backslash :: 0x75 :: bytes)

/-- What stands between the quotes of a string. -/
inductive IsContents : Bytes → Prop where
  | nil : IsContents []
  | plain {b : UInt8} {rest : Bytes} (h : IsPlain b) (hrest : IsContents rest) :
    IsContents (b :: rest)
  | escape {bytes rest : Bytes} (h : IsEscape bytes) (hrest : IsContents rest) :
    IsContents (bytes ++ rest)

theorem IsContents.append {bytes rest : Bytes} (h : IsContents bytes) (hrest : IsContents rest) :
    IsContents (bytes ++ rest) := by
  induction h with
  | nil => exact hrest
  | plain h _ ih => exact .plain h ih
  | escape h _ ih =>
    rw [List.append_assoc]
    exact .escape h ih

theorem IsContents.of_plain {bytes : Bytes} (h : ∀ b ∈ bytes, IsPlain b) : IsContents bytes := by
  induction bytes with
  | nil => exact .nil
  | cons b bytes ih =>
    exact .plain (h b List.mem_cons_self) (ih fun b' hb' => h b' (List.mem_cons_of_mem b hb'))

theorem IsEscape.isContents {bytes : Bytes} (h : IsEscape bytes) : IsContents bytes := by
  have hescape := IsContents.escape h .nil
  rwa [List.append_nil] at hescape

theorem SpellsChar.isContents {c : Char} {bytes : Bytes} (h : SpellsChar c bytes) :
    IsContents bytes := by
  cases h with
  | raw hcontrol hquote hbackslash =>
    exact .of_plain fun b hb => isPlain_of_mem hcontrol hquote hbackslash hb
  | letter h => exact (IsEscape.letter h).isContents
  | unit h => exact (IsEscape.unit h).isContents
  | pair _ hleading htrailing =>
    exact (IsEscape.unit hleading).isContents.append (IsEscape.unit htrailing).isContents

/-- Every spelling of a text can stand in a string. -/
theorem SpellsText.isContents {cs : List Char} {bytes : Bytes} (h : SpellsText cs bytes) :
    IsContents bytes := by
  induction h with
  | nil => exact .nil
  | cons h _ ih => exact h.isContents.append ih

/-! ## Numbers -/

/-- One digit or more. -/
def IsDigits (ds : Bytes) : Prop := ds ≠ [] ∧ ∀ b ∈ ds, isDigit b = true

/-- The digits in front of the point: nothing comes after a leading zero. -/
inductive IsWhole : Bytes → Prop where
  | zero : IsWhole [0x30]
  | digits {b : UInt8} {ds : Bytes} (hb : b ≠ 0x30) (h : IsDigits (b :: ds)) : IsWhole (b :: ds)

/-- The point and the digits behind it, if there is a point. -/
inductive IsFraction : Bytes → Prop where
  | none : IsFraction []
  | some {ds : Bytes} (h : IsDigits ds) : IsFraction (0x2E :: ds)

/-- The exponent, if there is one. -/
inductive IsExponent : Bytes → Prop where
  | none : IsExponent []
  | some {e : UInt8} {sign ds : Bytes} (he : e = 0x65 ∨ e = 0x45)
    (hsign : sign = [] ∨ sign = [0x2B] ∨ sign = [minus]) (h : IsDigits ds) :
    IsExponent (e :: (sign ++ ds))

/-- A number. -/
inductive IsNumber : Bytes → Prop where
  | mk {sign whole fraction exponent : Bytes} (hsign : sign = [] ∨ sign = [minus])
    (hwhole : IsWhole whole) (hfraction : IsFraction fraction) (hexponent : IsExponent exponent) :
    IsNumber (sign ++ whole ++ fraction ++ exponent)

theorem IsWhole.exists_cons {whole : Bytes} (h : IsWhole whole) :
    ∃ b rest, whole = b :: rest ∧ isDigit b = true := by
  cases h with
  | zero => exact ⟨0x30, [], rfl, rfl⟩
  | digits _ h => exact ⟨_, _, rfl, h.2 _ List.mem_cons_self⟩

theorem IsNumber.exists_cons {bytes : Bytes} (h : IsNumber bytes) :
    ∃ b rest, bytes = b :: rest ∧ (b = minus ∨ isDigit b = true) := by
  cases h with
  | mk hsign hwhole _ _ =>
    obtain ⟨b, rest, rfl, hb⟩ := hwhole.exists_cons
    rcases hsign with rfl | rfl
    · exact ⟨b, _, rfl, .inr hb⟩
    · exact ⟨minus, _, rfl, .inl rfl⟩

/-! ## Values -/

/-- The words that are values. -/
def words : List Bytes := [encode "null", encode "true", encode "false"]

theorem words_eq : words = [0x6E :: ofNull, 0x74 :: ofTrue, 0x66 :: ofFalse] := by decide

/-- The byte that opens a bracket. -/
def Bracket.opening : Bracket → UInt8
  | .square => openBracket
  | .curly => openBrace

/-- What comes in front of an element or member: white space, with a comma in it unless it is the
first, and the key of a member with its colon. -/
inductive Fronts : Bracket → (first : Bool) → (key : Bytes) → Bytes → Prop where
  | square {first : Bool} {lead : Bytes} (hlead : Leads first lead) : Fronts .square first [] lead
  | curly {first : Bool} {lead key before after : Bytes} (hlead : Leads first lead)
    (hkey : IsContents key) (hbefore : Blank before) (hafter : Blank after) :
    Fronts .curly first key (lead ++ quote :: (key ++ quote :: (before ++ colon :: after)))

mutual

/-- A value. -/
inductive IsValue : Bytes → Prop where
  | word {bytes : Bytes} (h : bytes ∈ words) : IsValue bytes
  | string {bytes : Bytes} (h : IsContents bytes) : IsValue (quote :: (bytes ++ [quote]))
  | number {bytes : Bytes} (h : IsNumber bytes) : IsValue bytes
  | bracketed {bracket : Bracket} {items : List (Bytes × Bytes)} {rest : Bytes}
    (h : IsItems bracket true items rest) : IsValue (bracket.opening :: rest)

/-- What is left of an array or object, up to its end: its elements or members, each a key and a
value, the contents of the key as they are written. -/
inductive IsItems : Bracket → (first : Bool) → List (Bytes × Bytes) → Bytes → Prop where
  | nil {bracket : Bracket} {first : Bool} {space : Bytes} (h : Blank space) :
    IsItems bracket first [] (space ++ [bracket.close])
  | cons {bracket : Bracket} {first : Bool} {key front value rest : Bytes}
    {items : List (Bytes × Bytes)} (hfront : Fronts bracket first key front)
    (hvalue : IsValue value) (hrest : IsItems bracket false items rest) :
    IsItems bracket first ((key, value) :: items) (front ++ value ++ rest)

end

/-- An array or object with nothing but white space around it. -/
def IsDocument (s : Bytes) : Prop :=
  ∃ (before after : Bytes) (bracket : Bracket) (items : List (Bytes × Bytes)) (rest : Bytes),
    Blank before ∧ IsItems bracket true items rest ∧ Blank after ∧
    s = before ++ bracket.opening :: rest ++ after

/-- White space in front of a value belongs to what comes in front of it. -/
theorem Fronts.append_blank {bracket : Bracket} {first : Bool} {key front space : Bytes}
    (h : Fronts bracket first key front) (hspace : Blank space) :
    Fronts bracket first key (front ++ space) := by
  cases h with
  | square hlead =>
    cases hlead with
    | first h => exact .square (.first (h.append hspace))
    | @next before after h h' =>
      rw [List.append_assoc, List.cons_append]
      exact .square (.next h (h'.append hspace))
  | curly hlead hkey hbefore hafter =>
    have hfront := Fronts.curly hlead hkey hbefore (hafter.append hspace)
    simpa only [List.append_assoc, List.cons_append] using hfront

/-- How a value starts. -/
theorem IsValue.exists_cons {value : Bytes} (h : IsValue value) :
    ∃ b rest, value = b :: rest ∧ isSpace b = false ∧ b ∉ closers := by
  cases h with
  | word h =>
    rw [words_eq, List.mem_cons, List.mem_cons, List.mem_singleton] at h
    rcases h with rfl | rfl | rfl <;> exact ⟨_, _, rfl, rfl, by decide⟩
  | string h => exact ⟨_, _, rfl, rfl, by decide⟩
  | number h =>
    obtain ⟨b, rest, rfl, hb⟩ := h.exists_cons
    refine ⟨b, rest, rfl, ?_⟩
    rcases hb with rfl | hdigit
    · exact ⟨rfl, by decide⟩
    · refine ⟨Bool.eq_false_iff.mpr fun hspace => ?_, fun hmem => ?_⟩
      · rcases isSpace_iff.mp hspace with rfl | rfl | rfl | rfl <;> exact absurd hdigit (by decide)
      · exact absurd hdigit (Bool.eq_false_iff.mp (isDigit_of_mem_closers hmem))
  | @bracketed bracket _ _ h =>
    refine ⟨bracket.opening, _, rfl, ?_⟩
    cases bracket with
    | square => exact ⟨rfl, by decide⟩
    | curly => exact ⟨rfl, by decide⟩

theorem IsValue.length_pos {value : Bytes} (h : IsValue value) : 0 < value.length := by
  obtain ⟨b, rest, rfl, -⟩ := h.exists_cons
  exact Nat.succ_pos _

theorem IsItems.length_pos {bracket : Bracket} {first : Bool} {items : List (Bytes × Bytes)}
    {bytes : Bytes} (h : IsItems bracket first items bytes) : 0 < bytes.length := by
  cases h with
  | nil _ => simp
  | cons _ hvalue _ =>
    have := hvalue.length_pos
    simp only [List.length_append]
    omega

/-- White space in front of a value is all that is left out. -/
theorem IsValue.skipSpace {space value : Bytes} (hspace : Blank space) (h : IsValue value)
    (rest : Bytes) : Json.skipSpace (space ++ value ++ rest) = value ++ rest := by
  obtain ⟨b, tail, rfl, hb, -⟩ := h.exists_cons
  rw [List.append_assoc, skipSpace_append hspace, List.cons_append, skipSpace_cons hb]

/-- A value can stand in front of what is left of an array or object. -/
theorem IsItems.closes {bracket : Bracket} {items : List (Bytes × Bytes)} {bytes : Bytes}
    (h : IsItems bracket false items bytes) (s : Bytes) : Closes (bytes ++ s) := by
  have hcomma : comma ∈ closers := by decide
  have hlead {lead : Bytes} (h : Leads false lead) (s : Bytes) : Closes (lead ++ s) := by
    cases h with
    | next h h' =>
      rw [List.append_assoc, List.cons_append]
      exact closes_append h hcomma _
  cases h with
  | nil h =>
    rw [List.append_assoc, List.singleton_append]
    exact closes_append h (by cases bracket <;> decide) s
  | cons hfront _ _ =>
    rw [List.append_assoc, List.append_assoc]
    cases hfront with
    | square h => exact hlead h _
    | curly h _ _ _ =>
      rw [List.append_assoc]
      exact hlead h _

/-! ## Spellings are values -/

theorem isNumber_digitBytes (n : Nat) : IsNumber (digitBytes n) := by
  have hdigits : IsDigits (digitBytes n) :=
    ⟨digitBytes_ne_nil n, fun _ => isDigit_of_mem_digitBytes⟩
  have hwhole : IsWhole (digitBytes n) := by
    rcases Nat.eq_zero_or_pos n with rfl | hpos
    · have hzero : digitBytes 0 = [0x30] := by decide
      exact hzero ▸ .zero
    · obtain ⟨b, ds, heq, hb⟩ := digitBytes_eq_cons hpos
      rw [heq] at hdigits ⊢
      exact .digits hb hdigits
  have hnumber := IsNumber.mk (.inl rfl) hwhole .none .none
  rwa [List.nil_append, List.append_nil, List.append_nil] at hnumber

/-- The parts of a member, with what comes in front of its value by itself. -/
theorem member_eq (lead key before after bytes rest : Bytes) :
    lead ++ key ++ before ++ colon :: (after ++ bytes ++ rest) =
      lead ++ key ++ before ++ colon :: after ++ bytes ++ rest := by
  simp only [List.append_assoc, List.cons_append]

theorem fronts_quoted {first : Bool} {lead before after : Bytes} (hlead : Leads first lead)
    (key : String) (hbefore : Blank before) (hafter : Blank after) :
    Fronts .curly first (encodeChars (key.toList.flatMap quotedChar))
      (lead ++ encode (quoted key) ++ before ++ colon :: after) := by
  have hfront := Fronts.curly hlead (spellsText_quoted key.toList).isContents hbefore hafter
  simpa only [encode_quoted, List.append_assoc, List.cons_append, List.nil_append] using hfront

mutual

/-- Every spelling of a document is a value. -/
theorem Spells.isValue : ∀ {document : Document} {bytes : Bytes}, Spells document bytes →
    IsValue bytes
  | _, _, .string value => by
    rw [encode_quoted]
    exact .string (spellsText_quoted value.toList).isContents
  | _, _, .number value => .number (isNumber_digitBytes value)
  | _, _, .object h => by
    obtain ⟨items, hitems⟩ := h.exists_isItems
    exact .bracketed hitems

theorem SpellsMembers.exists_isItems : ∀ {first : Bool} {members : List (String × Document)}
    {bytes : Bytes}, SpellsMembers first members bytes → ∃ items, IsItems .curly first items bytes
  | _, _, _, .nil h => ⟨[], .nil h⟩
  | _, _, _, @SpellsMembers.cons _ key _ _ lead before after bytes rest hlead hbefore hafter hvalue
      hrest => by
    obtain ⟨items, hitems⟩ := hrest.exists_isItems
    rw [member_eq]
    exact ⟨_, .cons (fronts_quoted hlead key hbefore hafter) hvalue.isValue hitems⟩

end

end Strongbox.Json
