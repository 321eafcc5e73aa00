import Strongbox.Derivation.Spec
import Strongbox.Json.Record
import Strongbox.Json.Writer
/-!
# Derivation properties

A derivation as it stands in a document: names and numbers, each of which may be missing. Nothing
is checked but that numbers fit into 32 bits.

## Main definitions

* `Derivation.Properties`: a derivation as it stands in a document
* `Properties.schema`, `Properties.ofJson`: reading
* `Properties.document`, `Properties.toJson`: writing
* `Properties.ofSpec`: the properties of a spec
-/

namespace Strongbox.Derivation

/-- A derivation as it stands in a document. -/
structure Properties where
  /-- The name of the function. -/
  function : Option String := none
  /-- The name of the digest. -/
  hashFunction : Option String := none
  /-- The length of a key in bytes. -/
  derivedKeyLength : Option UInt32 := none
  /-- The number of iterations, or the cost. -/
  iterations : Option UInt32 := none
  /-- The size of a block. -/
  blockSize : Option UInt32 := none
  /-- The number of lanes. -/
  parallelization : Option UInt32 := none
deriving DecidableEq, Repr, Inhabited

namespace Properties

/-- A field that holds a string or `null`. -/
def textField (name : String) (aliases : List String)
    (set : Properties → Option String → Properties) : Json.Field Properties where
  name := name
  aliases := aliases
  read source _ properties s :=
    (Json.nullable (Json.string source) s).map fun (value, rest) => (set properties value, rest)
  length_of_read := by
    intro source room properties s properties' rest h
    cases h₁ : Json.nullable (Json.string source) s with
    | error _ => simp [h₁, Except.map] at h
    | ok p =>
      simp only [h₁, Except.map, Except.ok.injEq, Prod.mk.injEq] at h
      exact h.2 ▸ Json.length_of_nullable Json.length_of_string h₁

/-- A field that holds a whole number or `null`. -/
def numberField (name : String) (set : Properties → Option UInt32 → Properties) :
    Json.Field Properties where
  name := name
  aliases := []
  read source room properties s :=
    (Json.nullable (Json.natural source room) s).map fun (value, rest) =>
      (set properties value, rest)
  length_of_read := by
    intro source room properties s properties' rest h
    cases h₁ : Json.nullable (Json.natural source room) s with
    | error _ => simp [h₁, Except.map] at h
    | ok p =>
      simp only [h₁, Except.map, Except.ok.injEq, Prod.mk.injEq] at h
      exact h.2 ▸ Json.length_of_nullable Json.length_of_natural h₁

/-- How properties are read. -/
def schema : Json.Schema Properties where
  name := "KdfProperties"
  initial := {}
  fields := [
    textField "function" [] fun p value => { p with function := value },
    textField "hashFunction" ["hash"] fun p value => { p with hashFunction := value },
    numberField "derivedKeyLength" fun p value => { p with derivedKeyLength := value },
    numberField "iterations" fun p value => { p with iterations := value },
    numberField "blockSize" fun p value => { p with blockSize := value },
    numberField "parallelization" fun p value => { p with parallelization := value }]

/-- The properties of a document. -/
def ofJson (text : String) : Except Json.Fault Properties :=
  schema.decode .text (Text.Utf8.encode text)

/-- What is written of a number. -/
def numberDocument (n : UInt32) : Json.Document := .number n.toNat

/-- What is written: the properties that are there. -/
def document (p : Properties) : Json.Document :=
  .object <|
    Json.Document.member? "function" .string p.function ++
    Json.Document.member? "hashFunction" .string p.hashFunction ++
    Json.Document.member? "derivedKeyLength" numberDocument p.derivedKeyLength ++
    Json.Document.member? "iterations" numberDocument p.iterations ++
    Json.Document.member? "blockSize" numberDocument p.blockSize ++
    Json.Document.member? "parallelization" numberDocument p.parallelization

/-- The document of properties, without white space. -/
def toJson (p : Properties) : String := p.document.compact

/-- The properties that name a function and nothing else. -/
def ofFunction (name : String) : Properties := { function := some name }

/-- A positive number as a word. -/
def wordOf (n : Positive) : UInt32 := n.val.toUInt32

/-- The properties of a spec: those its function has. -/
def ofSpec (spec : Spec) : Properties where
  function := some spec.function.name
  hashFunction := some spec.digest.name
  derivedKeyLength := some (wordOf spec.keyLength)
  iterations := spec.iterations.map wordOf
  blockSize := spec.blockSize.map wordOf
  parallelization := spec.parallelization.map wordOf

end Properties

end Strongbox.Derivation
