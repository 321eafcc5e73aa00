import Strongbox.Bytes
import Strongbox.Json.Fault
/-!
# White space, words and punctuation

A reader takes a byte string and gives a value with the bytes it left, or a fault. This module
holds the readers that know nothing of values yet.

## Main definitions

* `Json.Reader`: readers
* `Json.skipSpace`: leaves out white space
* `Json.word`: reads the rest of a word
* `Json.document`: reads a value with nothing but white space around it

## Main results

* `Json.length_skipSpace_le`, `Json.length_of_word`: how much is left
-/

namespace Strongbox.Json

/-- A reader takes a value off the front of a byte string and gives what it left. -/
abbrev Reader (α : Type) := Bytes → Except Fault (α × Bytes)

/-- The bytes a document may hold between its tokens: space, tab, line feed, carriage return. -/
def isSpace (b : UInt8) : Bool := b == 0x20 || b == 0x09 || b == 0x0A || b == 0x0D

/-- What is left after white space. -/
def skipSpace (s : Bytes) : Bytes := s.dropWhile isSpace

theorem length_skipSpace_le (s : Bytes) : (skipSpace s).length ≤ s.length :=
  (List.dropWhile_sublist _).length_le

/-- What follows the first byte after white space is shorter than the whole. -/
theorem length_of_skipSpace {s rest : Bytes} {b : UInt8} (h : skipSpace s = b :: rest) :
    rest.length < s.length := by
  have hle := length_skipSpace_le s
  rw [h] at hle
  exact Nat.lt_of_succ_le hle

/-- The double quote. -/
def quote : UInt8 := 0x22

/-- The backslash. -/
def backslash : UInt8 := 0x5C

/-- The comma. -/
def comma : UInt8 := 0x2C

/-- The colon. -/
def colon : UInt8 := 0x3A

/-- The minus sign. -/
def minus : UInt8 := 0x2D

/-- The opening square bracket. -/
def openBracket : UInt8 := 0x5B

/-- The closing square bracket. -/
def closeBracket : UInt8 := 0x5D

/-- The opening brace. -/
def openBrace : UInt8 := 0x7B

/-- The closing brace. -/
def closeBrace : UInt8 := 0x7D

/-- The digits `0` to `9`. -/
def isDigit (b : UInt8) : Bool := 0x30 ≤ b && b ≤ 0x39

/-- Reads the rest of a word byte by byte. -/
def word : (due : Bytes) → Bytes → Except Fault Bytes
  | [], s => .ok s
  | _ :: _, [] => .error .endInValue
  | d :: due, b :: s => if b = d then word due s else .error .expectedWord

/-- The rest of the word `null`. -/
def ofNull : Bytes := [0x75, 0x6C, 0x6C]

/-- The rest of the word `true`. -/
def ofTrue : Bytes := [0x72, 0x75, 0x65]

/-- The rest of the word `false`. -/
def ofFalse : Bytes := [0x61, 0x6C, 0x73, 0x65]

/-- A word stands in front of what reading it leaves. -/
theorem eq_append_of_word {due s rest : Bytes} (h : word due s = .ok rest) : s = due ++ rest := by
  induction due generalizing s with
  | nil => simpa [word] using h
  | cons d due ih =>
    cases s with
    | nil => simp [word] at h
    | cons b s =>
      by_cases hb : b = d
      · rw [word, if_pos hb] at h
        rw [hb, ih h, List.cons_append]
      · rw [word, if_neg hb] at h
        cases h

/-- Reading a word gives back no more than there was. -/
theorem length_of_word {due s rest : Bytes} (h : word due s = .ok rest) :
    rest.length ≤ s.length := by
  simp [eq_append_of_word h]

/-- The colon after a key, white space in front of it left out. -/
def afterColon (s : Bytes) : Except Fault Bytes :=
  match skipSpace s with
  | [] => .error .endInObject
  | b :: rest => if b = colon then .ok rest else .error .expectedColon

/-- Reading a colon takes a byte at least. -/
theorem length_of_afterColon {s rest : Bytes} (h : afterColon s = .ok rest) :
    rest.length < s.length := by
  unfold afterColon at h
  split at h
  · cases h
  · next b r hr =>
    split at h
    · cases h
      exact length_of_skipSpace hr
    · cases h

/-- Nothing but white space may follow. -/
def finish (s : Bytes) : Except Fault Unit :=
  match skipSpace s with
  | [] => .ok ()
  | _ :: _ => .error .trailingCharacters

/-- A whole document: a value with nothing but white space after it. -/
def document {α : Type} (read : Reader α) (s : Bytes) : Except Fault α := do
  let (value, rest) ← read s
  finish rest
  return value

end Strongbox.Json
