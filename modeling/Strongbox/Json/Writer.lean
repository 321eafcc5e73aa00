import Strongbox.Json.Text
/-!
# Writing documents

A document is written with its members in the order they are given, either without any white
space or with one member a line.

## Main definitions

* `Json.Document`: what is written
* `Document.compact`, `Document.pretty`: the two layouts
-/

namespace Strongbox.Json

/-- What is written: strings, whole numbers, and objects with their members in order. -/
inductive Document where
  /-- A string. -/
  | string (value : String)
  /-- A whole number. -/
  | number (value : Nat)
  /-- An object. -/
  | object (members : List (String × Document))

namespace Document

mutual

/-- The layout without white space. -/
def compact : Document → String
  | .string value => quoted value
  | .number value => toString value
  | .object members => "\x7b" ++ compactMembers members ++ "\x7d"

/-- Members without white space. -/
def compactMembers : List (String × Document) → String
  | [] => ""
  | [(key, value)] => quoted key ++ ":" ++ value.compact
  | (key, value) :: rest => quoted key ++ ":" ++ value.compact ++ "," ++ compactMembers rest

end

/-- The blanks in front of a line at a level. -/
def margin (level : Nat) : String := String.ofList (List.replicate (2 * level) ' ')

mutual

/-- The layout with one member a line, its first line at the given level. -/
def prettyAt (level : Nat) : Document → String
  | .string value => quoted value
  | .number value => toString value
  | .object [] => "\x7b\x7d"
  | .object members =>
    "\x7b\n" ++ prettyMembers (level + 1) members ++ "\n" ++ margin level ++ "\x7d"

/-- Members, one a line. -/
def prettyMembers (level : Nat) : List (String × Document) → String
  | [] => ""
  | [(key, value)] => margin level ++ quoted key ++ ": " ++ value.prettyAt level
  | (key, value) :: rest =>
    margin level ++ quoted key ++ ": " ++ value.prettyAt level ++ ",\n" ++
      prettyMembers level rest

end

/-- The layout with one member a line, two blanks a level. -/
def pretty (document : Document) : String := prettyAt 0 document

/-- A member that is left out if it has no value. -/
def member? {α : Type} (key : String) (write : α → Document) :
    Option α → List (String × Document)
  | none => []
  | some value => [(key, write value)]

end Document

end Strongbox.Json
