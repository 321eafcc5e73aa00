import Strongbox.Derivation.Draft
import Strongbox.Derivation.Kdf
import Strongbox.Journal
import Strongbox.Naming
/-!
# Journals of derivations

Building a spec and deriving a key, with what goes into the journal.

## Main definitions

* `Journal.buildSpec`, `Journal.specOfProperties`, `Journal.specOfJson`: a spec is noted once it
  is built
* `Journal.decodeSpec`: the same for a spec that is a document of its own
* `Journal.fill`, `Journal.deriveKey`, `Journal.deriveKeyAt`: a derivation is noted before it runs

## Main results

* `Journal.outcome_buildSpec` and the like: what these runs give
-/

namespace Strongbox.Journal

open Strongbox.Derivation (Draft Properties Spec)

/-- A spec was built. -/
def specBuilt (spec : Spec) : Event where
  level := .debug
  message := "Built KDF spec"
  fields := [("function", spec.function.name), ("digest", spec.digest.name),
    ("derived_key_length", toString spec.keyLength.val)]

/-- Key material of `length` bytes is about to be derived. -/
def keyDerived (kdf : Kdf) (salt : Bytes) (length : Nat) : Event where
  level := .trace
  message := "Deriving key"
  fields := [("function", kdf.spec.function.name), ("salt_len", toString salt.length),
    ("key_len", toString length)]

/-- The spec of a draft. -/
def buildSpec (draft : Draft) : Journal Error Spec := do
  let spec ← lift draft.build
  note (specBuilt spec)
  return spec

/-- The spec of properties. -/
def specOfProperties (p : Properties) : Journal Error Spec := do
  buildSpec (← lift (Draft.ofProperties p))

/-- The spec of a document. -/
def specOfJson (text : String) : Journal Error Spec := do
  specOfProperties (← lift ((Properties.ofJson text).mapError .serialization))

/-- The spec that a document holds; it is noted before the end of the document is looked at. -/
def decodeSpec (text : String) : Journal Json.Fault Spec := do
  let (properties, rest) ←
    lift (Properties.schema.read .text Json.maxNesting (Text.Utf8.encode text))
  let spec ← (specOfProperties properties).mapError fun error => .refused error.message
  lift (Json.finish rest)
  return spec

/-- Key material of `length` bytes. -/
def fill (kdf : Kdf) (password salt : Bytes) (length : Nat) : Journal Error Bytes := do
  note (keyDerived kdf salt length)
  lift (kdf.fill password salt length)

/-- A key. -/
def deriveKey (kdf : Kdf) (password salt : Bytes) : Journal Error DerivedKey := do
  return ⟨← fill kdf password salt kdf.keyLength⟩

/-- The buffer with a key written into it from an offset on, if there is room. -/
def deriveKeyAt (kdf : Kdf) (password salt buffer : Bytes) (offset : Nat) :
    Journal Error Bytes := do
  let available := Bytes.room buffer offset
  if available < kdf.keyLength then lift (.error (.bufferTooShort kdf.keyLength available))
  else do
    note (keyDerived kdf salt kdf.keyLength)
    lift (kdf.deriveKeyAt password salt buffer offset)

@[simp] theorem outcome_buildSpec (draft : Draft) : (buildSpec draft).outcome = draft.build := by
  cases h : draft.build <;> simp [buildSpec, h, bind, note]

@[simp] theorem outcome_specOfProperties (p : Properties) :
    (specOfProperties p).outcome = Spec.ofProperties p := by
  simp [specOfProperties, Spec.ofProperties]

@[simp] theorem outcome_specOfJson (text : String) :
    (specOfJson text).outcome = Spec.ofJson text := by
  simp [specOfJson, Spec.ofJson]

@[simp] theorem outcome_decodeSpec (text : String) :
    (decodeSpec text).outcome = Spec.decode text := by
  simp only [decodeSpec, Spec.decode, Json.document, Spec.reader, Json.refined, outcome_bind,
    outcome_lift, outcome_mapError, outcome_specOfProperties]
  cases Properties.schema.read .text Json.maxNesting (Text.Utf8.encode text) with
  | error _ => rfl
  | ok p =>
    cases h : Spec.ofProperties p.1 with
    | error _ => simp only [bind, Except.bind, h]; rfl
    | ok spec =>
      cases h' : Json.finish p.2 <;> simp only [bind, Except.bind, h] <;> rfl

@[simp] theorem outcome_fill (kdf : Kdf) (password salt : Bytes) (length : Nat) :
    (fill kdf password salt length).outcome = kdf.fill password salt length := by
  simp [fill, note, bind]

@[simp] theorem outcome_deriveKey (kdf : Kdf) (password salt : Bytes) :
    (deriveKey kdf password salt).outcome = kdf.deriveKey password salt := by
  simp [deriveKey, Kdf.deriveKey]
  rfl

@[simp] theorem outcome_deriveKeyAt (kdf : Kdf) (password salt buffer : Bytes) (offset : Nat) :
    (deriveKeyAt kdf password salt buffer offset).outcome =
      kdf.deriveKeyAt password salt buffer offset := by
  simp only [deriveKeyAt]
  split
  · next hshort => simp only [Kdf.deriveKeyAt, Kdf.overwriteAt, if_pos hshort, outcome_lift]; rfl
  · rfl

end Strongbox.Journal
