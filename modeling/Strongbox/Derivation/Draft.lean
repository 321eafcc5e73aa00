import Strongbox.Derivation.Properties
/-!
# Derivation drafts

A draft is a spec in the making: a function, and those of its parameters that were set. Parameters
that were not set fall back on what the function prescribes, those it does not use do not count.

## Main definitions

* `Derivation.Draft`: a spec in the making
* `Derivation.Setting`, `Draft.apply`: what can be set
* `Draft.build`: the spec of a draft
* `Spec.ofProperties`, `Spec.ofJson`: the spec of properties and of a document
* `Spec.document`, `Spec.toJson`: the document of a spec
-/

namespace Strongbox.Derivation

/-- A spec in the making. -/
structure Draft where
  /-- The function. -/
  function : Function
  /-- The digest, if set. -/
  digest : Option Digest := none
  /-- The length of a key in bytes, if set. -/
  keyLength : Option Nat := none
  /-- The number of iterations, or the cost, if set. -/
  iterations : Option UInt32 := none
  /-- The size of a block, if set. -/
  blockSize : Option UInt32 := none
  /-- The number of lanes, if set. -/
  parallelization : Option UInt32 := none
deriving DecidableEq, Repr

/-- What can be set in a draft. -/
inductive Setting where
  /-- The digest. -/
  | digest (digest : Digest)
  /-- The digest, by name. -/
  | digestName (name : String)
  /-- The length of a key in bytes. -/
  | keyLength (length : Nat)
  /-- The number of iterations, or the cost. -/
  | iterations (n : UInt32)
  /-- The size of a block. -/
  | blockSize (n : UInt32)
  /-- The number of lanes. -/
  | parallelization (n : UInt32)
  /-- All properties that are there, the function apart. -/
  | properties (properties : Properties)
deriving DecidableEq, Repr

namespace Draft

/-- The size of a block when none is set. -/
def defaultBlockSize : UInt32 := 8

/-- The number of lanes when none is set. -/
def defaultParallelization : UInt32 := 1

/-- A draft in which nothing is set. -/
def ofFunction (function : Function) : Draft := { function }

/-- A draft in which nothing is set, its function by name. -/
def ofName (name : String) : Result Draft := do return ofFunction (← Function.ofName name)

/-- Sets the digest by name. -/
def setDigestName (draft : Draft) (name : String) : Result Draft := do
  return { draft with digest := some (← Digest.ofName name) }

/-- Sets all properties that are there, the function apart. -/
def setProperties (draft : Draft) (p : Properties) : Result Draft := do
  let draft ← match p.hashFunction with
    | some name => draft.setDigestName name
    | none => .ok draft
  return { draft with
    keyLength := (p.derivedKeyLength.map UInt32.toNat).or draft.keyLength
    iterations := p.iterations.or draft.iterations
    blockSize := p.blockSize.or draft.blockSize
    parallelization := p.parallelization.or draft.parallelization }

/-- Sets what a setting says. -/
def apply (draft : Draft) : Setting → Result Draft
  | .digest digest => .ok { draft with digest := some digest }
  | .digestName name => draft.setDigestName name
  | .keyLength length => .ok { draft with keyLength := some length }
  | .iterations n => .ok { draft with iterations := some n }
  | .blockSize n => .ok { draft with blockSize := some n }
  | .parallelization n => .ok { draft with parallelization := some n }
  | .properties p => draft.setProperties p

/-- A draft of properties, which have to name a function. -/
def ofProperties (p : Properties) : Result Draft :=
  match p.function with
  | some name => do (← ofName name).setProperties p
  | none => .error (.missingParameter "function")

/-- The number of iterations, which has no fallback. -/
def iterationsDue (draft : Draft) : Result UInt32 :=
  match draft.iterations with
  | some n => .ok n
  | none => .error (.missingParameter "iterations")

/-- The spec of a draft. That iterations are missing is told before anything else. -/
def build (draft : Draft) : Result Spec :=
  let digest := draft.digest.getD draft.function.defaultDigest
  let keyLength := draft.keyLength.getD draft.function.defaultKeyLength
  match draft.function with
  | .legacy => Spec.makeLegacy digest keyLength
  | .iteratedDigest => do Spec.makeIteratedDigest digest keyLength (← draft.iterationsDue)
  | .memoryHard => do
    Spec.makeMemoryHard digest keyLength (← draft.iterationsDue)
      (draft.blockSize.getD defaultBlockSize)
      (draft.parallelization.getD defaultParallelization)

/-- What is shown of a count that may not be set. -/
def countOutline : Option UInt32 → Text.Outline := Text.Outline.option fun n => .nat n.toNat

/-- What is shown of a draft. -/
def outline (draft : Draft) : Text.Outline :=
  .record "KdfSpecBuilder"
    [("function", draft.function.outline),
      ("digest", Text.Outline.option Digest.outline draft.digest),
      ("derived_key_length", Text.Outline.option Text.Outline.nat draft.keyLength),
      ("iterations", countOutline draft.iterations),
      ("block_size", countOutline draft.blockSize),
      ("parallelization", countOutline draft.parallelization)] true

end Draft

namespace Spec

/-- The spec of properties. -/
def ofProperties (p : Properties) : Result Spec := do (← Draft.ofProperties p).build

/-- The spec of a document. -/
def ofJson (text : String) : Result Spec := do
  let properties ← (Properties.ofJson text).mapError .serialization
  ofProperties properties

/-- What is written of a spec. -/
def document (spec : Spec) : Json.Document := (Properties.ofSpec spec).document

/-- The document of a spec, without white space. -/
def toJson (spec : Spec) : String := spec.document.compact

end Spec

end Strongbox.Derivation
