/-!
# Outlines of values

How a value is shown to a person: a word, a name applied to a value, or a record with named
fields, which may be marked as showing only some of them. An outline has two layouts, on one line
and with one field a line.

## Main definitions

* `Outline`: what is shown of a value
* `Outline.inline`: the layout on one line
* `Outline.indented`: the layout with one field a line, four blanks a level
-/

namespace Strongbox.Text

/-- What is shown of a value. -/
inductive Outline where
  /-- A word, shown as it is. -/
  | word (text : String)
  /-- A name applied to a value. -/
  | wrap (name : String) (inner : Outline)
  /-- A record; `complete` says that all its fields are shown. -/
  | record (name : String) (fields : List (String × Outline)) (complete : Bool)

namespace Outline

/-- A value that may be missing. -/
def option {α : Type} (outline : α → Outline) : Option α → Outline
  | none => .word "None"
  | some a => .wrap "Some" (outline a)

/-- A number in decimal. -/
def nat (n : Nat) : Outline := .word (toString n)

mutual

/-- The layout on one line. -/
def inline : Outline → String
  | .word text => text
  | .wrap name inner => name ++ "(" ++ inner.inline ++ ")"
  | .record name [] true => name
  | .record name fields complete =>
    name ++ " \x7b " ++ inlineFields fields ++ (if complete then " \x7d" else ", .. \x7d")

/-- The fields of a record on one line. -/
def inlineFields : List (String × Outline) → String
  | [] => ""
  | [(label, value)] => label ++ ": " ++ value.inline
  | (label, value) :: rest => label ++ ": " ++ value.inline ++ ", " ++ inlineFields rest

end

/-- The blanks in front of a line at a level. -/
def margin (level : Nat) : String := String.ofList (List.replicate (4 * level) ' ')

mutual

/-- The layout with one field a line, its first line at the given level. -/
def indentedAt (level : Nat) : Outline → String
  | .word text => text
  | .wrap name inner =>
    name ++ "(\n" ++ margin (level + 1) ++ inner.indentedAt (level + 1) ++ ",\n" ++
      margin level ++ ")"
  | .record name [] true => name
  | .record name fields complete =>
    name ++ " \x7b\n" ++ indentedFields (level + 1) fields ++
      (if complete then "" else margin (level + 1) ++ "..\n") ++ margin level ++ "\x7d"

/-- The fields of a record, one a line. -/
def indentedFields (level : Nat) : List (String × Outline) → String
  | [] => ""
  | (label, value) :: rest =>
    margin level ++ label ++ ": " ++ value.indentedAt level ++ ",\n" ++
      indentedFields level rest

end

/-- The layout with one field a line. -/
def indented (outline : Outline) : String := indentedAt 0 outline

end Outline

end Strongbox.Text
