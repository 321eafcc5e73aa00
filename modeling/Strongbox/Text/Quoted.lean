import Strongbox.Text.Printable
/-!
# Quoted text

A text between two quotes, in which the quote, the backslash and every character without a shape
of its own are written as escapes: the common control characters by a letter, the others by their
number in hexadecimal.

## Main definitions

* `Quoted.escape`: a character inside a quoted text
* `Quoted.string`: a string between double quotes
* `Quoted.char`: a character between single quotes
-/

namespace Strongbox.Text.Quoted

/-- A character inside a text quoted with `quote`. -/
def escape (quote c : Char) : List Char :=
  if c = '\x00' then ['\\', '0']
  else if c = '\t' then ['\\', 't']
  else if c = '\r' then ['\\', 'r']
  else if c = '\n' then ['\\', 'n']
  else if c = '\\' then ['\\', '\\']
  else if c = quote then ['\\', quote]
  else if isPrintable c then [c]
  else ['\\', 'u', '\x7b'] ++ Nat.toDigits 16 c.toNat ++ ['\x7d']

/-- A text between two quotes. -/
def between (quote : Char) (cs : List Char) : String :=
  String.ofList (quote :: cs.flatMap (escape quote) ++ [quote])

/-- A string between double quotes. -/
def string (s : String) : String := between '"' s.toList

/-- A character between single quotes. -/
def char (c : Char) : String := between '\'' [c]

end Strongbox.Text.Quoted
