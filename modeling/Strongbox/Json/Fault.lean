import Strongbox.Text.Quoted
/-!
# What can be wrong with a document

The reader stops at the first fault. Faults are causes without positions; `Fault.message` puts
them into words.

## Main definitions

* `Json.Found`: a value that stands where another kind was expected
* `Json.Fault`: what can be wrong with a document
-/

namespace Strongbox.Json

/-- A value that stands where another kind was expected. -/
inductive Found where
  /-- The word `null`. -/
  | null
  /-- One of the words `true` and `false`. -/
  | bool (value : Bool)
  /-- A whole number. -/
  | integer (value : Int)
  /-- Any other number, in its shortest spelling. -/
  | fraction (spelling : String)
  /-- A string. -/
  | string (value : String)
  /-- An array. -/
  | sequence
  /-- An object. -/
  | map
deriving DecidableEq, Repr

/-- The value in words. -/
def Found.describe : Found → String
  | .null => "null"
  | .bool value => "boolean `" ++ toString value ++ "`"
  | .integer value => "integer `" ++ toString value ++ "`"
  | .fraction spelling => "floating point `" ++ spelling ++ "`"
  | .string value => "string " ++ Text.Quoted.string value
  | .sequence => "sequence"
  | .map => "map"

/-- What can be wrong with a document. -/
inductive Fault where
  /-- The text ends where a value is due or inside a number or a word. -/
  | endInValue
  /-- The text ends inside an object. -/
  | endInObject
  /-- The text ends inside an array. -/
  | endInList
  /-- The text ends inside a string. -/
  | endInString
  /-- What stands there starts no value. -/
  | expectedValue
  /-- A word other than `null`, `true` and `false`. -/
  | expectedWord
  /-- A number with a digit missing, or one too many after a leading zero. -/
  | invalidNumber
  /-- A number too large to be held. -/
  | numberOutOfRange
  /-- A member of an object starts with something other than a string. -/
  | keyNotString
  /-- A key is not followed by a colon. -/
  | expectedColon
  /-- A member of an object is followed by neither a comma nor the end. -/
  | expectedCommaOrBrace
  /-- An element of an array is followed by neither a comma nor the end. -/
  | expectedCommaOrBracket
  /-- A comma stands before the end of an object or array. -/
  | trailingComma
  /-- Something follows what should have been the end. -/
  | trailingCharacters
  /-- A control character stands in a string as it is. -/
  | controlCharacter
  /-- A backslash is followed by no escape. -/
  | invalidEscape
  /-- The first half of a surrogate pair is not followed by another escape. -/
  | unexpectedEndOfEscape
  /-- The second half of a surrogate pair stands where none is due, or is missing. -/
  | loneSurrogate
  /-- A string holds bytes that are no text. -/
  | invalidCodePoint
  /-- Too many brackets are open at once. -/
  | recursionLimit
  /-- A value of one kind stands where another is expected. -/
  | wrongKind (found : Found) (expected : String)
  /-- A field is given twice. -/
  | duplicateField (name : String)
  /-- A value is neither a number nor a string. -/
  | neitherNumberNorString
  /-- A string is no whole number. -/
  | invalidInteger (spelling : String)
  /-- A whole number is too large for its field. -/
  | integerOutOfRange (value : Nat)
  /-- A value of the right kind is refused by those it is meant for. -/
  | refused (reason : String)
deriving DecidableEq, Repr

/-- The fault in words. -/
def Fault.message : Fault → String
  | .endInValue => "EOF while parsing a value"
  | .endInObject => "EOF while parsing an object"
  | .endInList => "EOF while parsing a list"
  | .endInString => "EOF while parsing a string"
  | .expectedValue => "expected value"
  | .expectedWord => "expected ident"
  | .invalidNumber => "invalid number"
  | .numberOutOfRange => "number out of range"
  | .keyNotString => "key must be a string"
  | .expectedColon => "expected `:`"
  | .expectedCommaOrBrace => "expected `,` or `\x7d`"
  | .expectedCommaOrBracket => "expected `,` or `]`"
  | .trailingComma => "trailing comma"
  | .trailingCharacters => "trailing characters"
  | .controlCharacter =>
    "control character (\\u0000-\\u001F) found while parsing a string"
  | .invalidEscape => "invalid escape"
  | .unexpectedEndOfEscape => "unexpected end of hex escape"
  | .loneSurrogate => "lone leading surrogate in hex escape"
  | .invalidCodePoint => "invalid unicode code point"
  | .recursionLimit => "recursion limit exceeded"
  | .wrongKind found expected => "invalid type: " ++ found.describe ++ ", expected " ++ expected
  | .duplicateField name => "duplicate field `" ++ name ++ "`"
  | .neitherNumberNorString =>
    "data did not match any variant of untagged enum NumberOrString"
  | .invalidInteger spelling => "invalid integer \"" ++ spelling ++ "\""
  | .integerOutOfRange value => "integer " ++ toString value ++ " out of range"
  | .refused reason => reason

end Strongbox.Json
