import Strongbox.Error
import Strongbox.Text.Outline
import Strongbox.Text.Token
import Strongbox.Text.Utf8
/-!
# Codecs

A codec writes a byte string as a text and reads it back.

## Main definitions

* `Codec`: the two codecs, `Codec.name` and `Codec.ofName`: their names
* `Codec.encode`, `Codec.decode`: writing and reading
-/

namespace Strongbox

/-- How a byte string is written as a text. -/
inductive Codec where
  /-- Hexadecimal. -/
  | hex
  /-- Base64. -/
  | base64
deriving DecidableEq, Repr

namespace Codec

/-- The codecs. -/
def all : List Codec := [.hex, .base64]

/-- The codec used when none is given. -/
def default : Codec := .hex

/-- The name a codec has in documents. -/
def name : Codec → String
  | .hex => "hex"
  | .base64 => "base64"

/-- The codec of a name as it is typed. -/
def ofName (s : String) : Result Codec :=
  match all.find? (·.name = Text.lowered s) with
  | some codec => .ok codec
  | none => .error (.invalidValue "codec" s)

/-- The text of a byte string. -/
def encode : Codec → Bytes → String
  | .hex, data => String.ofList (Hex.encode data)
  | .base64, data => String.ofList (Base64.encode data)

/-- The byte string of a text. -/
def decode : Codec → String → Result Bytes
  | .hex, text => (Hex.decode (Text.Utf8.encode text)).mapError (.codec ∘ .hex)
  | .base64, text => (Base64.decode (Text.Utf8.encode text)).mapError (.codec ∘ .base64)

/-- What is shown of a codec. -/
def outline : Codec → Text.Outline
  | .hex => .word "Hex"
  | .base64 => .word "Base64"

end Codec

end Strongbox
