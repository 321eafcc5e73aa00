import Strongbox.Json.Writer
import Strongbox.Proofs.Json.Number
import Strongbox.Proofs.Json.Text

/-!
# The spellings of a document

White space is free around the punctuation of an object, so that a document has many spellings. Both
layouts are among them: whatever reads every spelling of a document reads both.

## Main definitions

* `Json.Blank`: white space
* `Json.Spells`, `Json.SpellsMembers`: the spellings of a document and of what is left of an object

## Main results

* `Document.spells_compact`, `Document.spells_prettyAt`: the two layouts are spellings
* `Spells.exists_cons`: how a spelling starts
* `SpellsMembers.closes`: a value can stand in front of what is left of an object
-/

namespace Strongbox.Json

open Text.Utf8 (encode)

/-! ## White space -/

/-- White space. -/
def Blank (space : Bytes) : Prop := ∀ b ∈ space, isSpace b = true

theorem Blank.nil : Blank [] := fun _ h => absurd h List.not_mem_nil

theorem Blank.cons {b : UInt8} {space : Bytes} (hb : isSpace b = true) (h : Blank space) :
    Blank (b :: space) := by
  intro b' hb'
  rcases List.mem_cons.mp hb' with rfl | hb'
  · exact hb
  · exact h b' hb'

theorem Blank.append {space space' : Bytes} (h : Blank space) (h' : Blank space') :
    Blank (space ++ space') := by
  intro b hb
  rcases List.mem_append.mp hb with hb | hb
  · exact h b hb
  · exact h' b hb

theorem skipSpace_append {space : Bytes} (h : Blank space) (s : Bytes) :
    skipSpace (space ++ s) = skipSpace s :=
  List.dropWhile_append_of_pos h

theorem skipSpace_cons {b : UInt8} (h : isSpace b = false) (s : Bytes) :
    skipSpace (b :: s) = b :: s := by
  rw [skipSpace, List.dropWhile_cons_of_neg (by simp [h])]

/-! ## Spellings -/

/-- What comes in front of a member: white space, with a comma in it unless the member is the
first. -/
inductive Leads : (first : Bool) → Bytes → Prop where
  | first {space : Bytes} (h : Blank space) : Leads true space
  | next {before after : Bytes} (h : Blank before) (h' : Blank after) :
    Leads false (before ++ comma :: after)

mutual

/-- The spellings of a document, which differ in nothing but white space. -/
inductive Spells : Document → Bytes → Prop where
  | string (value : String) : Spells (.string value) (encode (quoted value))
  | number (value : Nat) : Spells (.number value) (digitBytes value)
  | object {members : List (String × Document)} {rest : Bytes}
    (h : SpellsMembers true members rest) : Spells (.object members) (openBrace :: rest)

/-- The spellings of what is left of an object; `first` says that no member stands in front. -/
inductive SpellsMembers : (first : Bool) → List (String × Document) → Bytes → Prop where
  | nil {first : Bool} {space : Bytes} (h : Blank space) :
    SpellsMembers first [] (space ++ [closeBrace])
  | cons {first : Bool} {key : String} {value : Document} {members : List (String × Document)}
    {lead before after bytes rest : Bytes} (hlead : Leads first lead) (hbefore : Blank before)
    (hafter : Blank after) (hvalue : Spells value bytes)
    (hrest : SpellsMembers false members rest) :
    SpellsMembers first ((key, value) :: members)
      (lead ++ encode (quoted key) ++ before ++ colon :: (after ++ bytes ++ rest))

end

/-- How a spelling starts. -/
theorem Spells.exists_cons {document : Document} {bytes : Bytes} (h : Spells document bytes) :
    ∃ b rest, bytes = b :: rest ∧ (b = quote ∨ isDigit b = true ∨ b = openBrace) := by
  cases h with
  | string value => exact ⟨quote, _, encode_quoted value, .inl rfl⟩
  | number value =>
    cases hds : digitBytes value with
    | nil => exact absurd hds (digitBytes_ne_nil value)
    | cons b rest =>
      exact ⟨b, rest, rfl, .inr (.inl (isDigit_of_mem_digitBytes (hds ▸ List.mem_cons_self)))⟩
  | object h => exact ⟨openBrace, _, rfl, .inr (.inr rfl)⟩

theorem closes_append {space : Bytes} (h : Blank space) {b : UInt8} (hb : b ∈ closers) (s : Bytes) :
    Closes (space ++ b :: s) := by
  intro b' hb'
  cases space with
  | nil =>
    obtain rfl := Option.some.inj hb'
    exact .inr hb
  | cons c space =>
    obtain rfl := Option.some.inj hb'
    exact .inl (h c List.mem_cons_self)

theorem Blank.closes {space : Bytes} (h : Blank space) : Closes space := fun b hb =>
  .inl (h b (List.mem_of_head? hb))

/-- A value can stand in front of what is left of an object. -/
theorem SpellsMembers.closes {members : List (String × Document)} {bytes : Bytes}
    (h : SpellsMembers false members bytes) (s : Bytes) : Closes (bytes ++ s) := by
  cases h with
  | nil h => exact List.append_assoc .. ▸ closes_append h (by decide) _
  | cons hlead _ _ _ _ =>
    cases hlead with
    | next h _ =>
      simp only [List.append_assoc, List.cons_append]
      exact closes_append h (by decide) _

/-- A comma lets the members of an object come after others. -/
theorem SpellsMembers.comma {member : String × Document} {members : List (String × Document)}
    {bytes : Bytes} (h : SpellsMembers true (member :: members) bytes) :
    SpellsMembers false (member :: members) (Json.comma :: bytes) := by
  cases h with
  | cons hlead hbefore hafter hvalue hrest =>
    cases hlead with
    | first h => exact .cons (.next .nil h) hbefore hafter hvalue hrest

/-! ## The two layouts -/

namespace Document

private theorem encode_colon : encode ":" = [colon] := rfl
private theorem encode_comma : encode "," = [comma] := rfl
private theorem encode_colonBlank : encode ": " = [colon, 0x20] := rfl
private theorem encode_commaLine : encode ",\n" = [comma, 0x0A] := rfl
private theorem encode_line : encode "\n" = [0x0A] := rfl
private theorem encode_opening : encode "\x7b" = [openBrace] := rfl
private theorem encode_openingLine : encode "\x7b\n" = [openBrace, 0x0A] := rfl
private theorem encode_closing : encode "\x7d" = [closeBrace] := rfl

mutual

/-- **The layout without white space is a spelling.** -/
theorem spells_compact : ∀ document : Document, Spells document (encode document.compact)
  | .string value => by
    rw [compact]
    exact .string value
  | .number value => by
    rw [compact, encode_toString]
    exact .number value
  | .object members => by
    have h := Spells.object (spells_compactMembers members)
    rw [compact]
    simpa [encode_opening, encode_closing] using h

/-- Without white space, all that comes in front of a member is a comma. -/
theorem spells_compactMembers : ∀ members : List (String × Document),
    SpellsMembers true members (encode (compactMembers members) ++ [closeBrace])
  | [] => .nil .nil
  | [(key, value)] => by
    have h : SpellsMembers true [(key, value)] _ :=
      .cons (.first .nil) .nil .nil (spells_compact value) (.nil .nil)
    rw [compactMembers]
    simpa [encode_colon] using h
  | (key, value) :: member :: members => by
    have h : SpellsMembers true ((key, value) :: member :: members) _ :=
      .cons (.first .nil) .nil .nil (spells_compact value)
        (spells_compactMembers (member :: members)).comma
    rw [compactMembers.eq_3 _ _ _ (List.cons_ne_nil _ _)]
    simpa [encode_colon, encode_comma] using h

end

private theorem blank_line : Blank [0x0A] := .cons rfl .nil
private theorem blank_blank : Blank [0x20] := .cons rfl .nil

theorem blank_margin (level : Nat) : Blank (encode (margin level)) := by
  have hbytes : encode (margin level) = List.replicate (2 * level) 0x20 := by
    rw [margin, Text.Utf8.encode_ofList_of_ascii, List.map_replicate]
    · rfl
    · intro c hc
      rw [List.eq_of_mem_replicate hc]
      decide
  intro b hb
  rw [hbytes] at hb
  rw [List.eq_of_mem_replicate hb]
  rfl

mutual

/-- **The layout with one member a line is a spelling**, whatever the level of its first line. -/
theorem spells_prettyAt : ∀ (level : Nat) (document : Document),
    Spells document (encode (document.prettyAt level))
  | level, .string value => by
    rw [prettyAt]
    exact .string value
  | level, .number value => by
    rw [prettyAt, encode_toString]
    exact .number value
  | level, .object [] => by
    rw [prettyAt]
    exact .object (.nil .nil)
  | level, .object (member :: members) => by
    have h := Spells.object <|
      spells_prettyMembers (level + 1) (member :: members) (List.cons_ne_nil _ _) blank_line
        (blank_line.append (blank_margin level))
    rw [prettyAt.eq_4 _ _ (List.cons_ne_nil _ _)]
    simpa [encode_openingLine, encode_line, encode_closing] using h

/-- With one member a line, the line break and the margin in front of a member are the white space
in front of its key; those in front of the closing brace are `tail`. -/
theorem spells_prettyMembers : ∀ (level : Nat) (members : List (String × Document)), members ≠ [] →
    ∀ {space tail : Bytes}, Blank space → Blank tail →
    SpellsMembers true members
      (space ++ encode (prettyMembers level members) ++ tail ++ [closeBrace])
  | _, [], hne => absurd rfl hne
  | level, [(key, value)], _ => by
    intro hspace htail
    have h : SpellsMembers true [(key, value)] _ :=
      .cons (.first (hspace.append (blank_margin level))) .nil blank_blank
        (spells_prettyAt level value) (.nil htail)
    rw [prettyMembers]
    simpa [encode_colonBlank] using h
  | level, (key, value) :: member :: members, _ => by
    intro hspace htail
    have hrest := spells_prettyMembers level (member :: members) (List.cons_ne_nil _ _) blank_line
      htail
    have h : SpellsMembers true ((key, value) :: member :: members) _ :=
      .cons (.first (hspace.append (blank_margin level))) .nil blank_blank
        (spells_prettyAt level value) hrest.comma
    rw [prettyMembers.eq_3 _ _ _ _ (List.cons_ne_nil _ _)]
    simpa [encode_colonBlank, encode_commaLine] using h

end

theorem spells_pretty (document : Document) : Spells document (encode document.pretty) :=
  spells_prettyAt 0 document

end Document

end Strongbox.Json
