import Strongbox.Codec
import Strongbox.Derivation.Draft
import Strongbox.Vault.Kind
/-!
# Names and specs as documents

A value with a name is written as a string, and read back from any string its name is recognized
in. A spec stands in a document as its properties. What a string or properties are refused for is
then the fault of the document.

## Main definitions

* `named`: the reader of values with names
* `Codec.ofJson`, `Digest.ofJson`, `Vault.Kind.ofJson` and their `toJson`: names as documents
* `Derivation.Spec.decode`: a spec as a document
-/

namespace Strongbox

/-- A string that is the name of a value. -/
def named {α : Type} (ofName : String → Result α) (source : Json.Source) : Json.Reader α :=
  Json.refined (Json.string source) fun name => (ofName name).mapError Error.message

theorem length_of_named {α : Type} {ofName : String → Result α} {source : Json.Source}
    {s rest : Bytes} {value : α} (h : named ofName source s = .ok (value, rest)) :
    rest.length < s.length :=
  Json.length_of_refined Json.length_of_string h

/-- The value whose name is all that stands in a document. -/
def ofNameDocument {α : Type} (ofName : String → Result α) (text : String) :
    Except Json.Fault α :=
  Json.document (named ofName .text) (Text.Utf8.encode text)

namespace Codec

/-- The codec of a document. -/
def ofJson (text : String) : Except Json.Fault Codec := ofNameDocument ofName text

/-- The document of a codec. -/
def toJson (codec : Codec) : String := Json.quoted codec.name

end Codec

namespace Digest

/-- The digest of a document. -/
def ofJson (text : String) : Except Json.Fault Digest := ofNameDocument ofName text

/-- The document of a digest. -/
def toJson (digest : Digest) : String := Json.quoted digest.name

end Digest

namespace Vault.Kind

/-- The kind of a document. -/
def ofJson (text : String) : Except Json.Fault Kind := ofNameDocument ofName text

/-- The document of a kind. -/
def toJson (kind : Kind) : String := Json.quoted kind.name

end Vault.Kind

namespace Derivation.Spec

/-- Properties that make a spec. -/
def reader : Json.Reader Spec :=
  Json.refined (Properties.schema.read .text Json.maxNesting) fun properties =>
    (ofProperties properties).mapError Error.message

/-- The spec that a document holds, a spec that is refused being a fault of the document. -/
def decode (text : String) : Except Json.Fault Spec :=
  Json.document reader (Text.Utf8.encode text)

end Derivation.Spec

end Strongbox
