import Strongbox.Text.Blank
/-!
# Names as they are typed

A name is looked up without regard to blanks around it and to the case of ASCII letters.

## Main definitions

* `lowered`, `uppered`: a string without the blanks around it, in one case
* `substitute`: one character in place of another
-/

namespace Strongbox.Text

/-- A string without the blanks around it, its ASCII letters in lower case. -/
def lowered (s : String) : String := String.ofList ((trimChars s.toList).map Char.toLower)

/-- A string without the blanks around it, its ASCII letters in upper case. -/
def uppered (s : String) : String := String.ofList ((trimChars s.toList).map Char.toUpper)

/-- A string with one character in place of another. -/
def substitute (old new : Char) (s : String) : String :=
  String.ofList (s.toList.map fun c => if c = old then new else c)

/-- A string without a character. -/
def without (c : Char) (s : String) : String := String.ofList (s.toList.filter (· ≠ c))

end Strongbox.Text
