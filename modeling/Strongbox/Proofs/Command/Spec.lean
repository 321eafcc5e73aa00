import Strongbox.Command.Answer
import Strongbox.Proofs.Derivation.Spec

/-!
# Printing a spec

The command that prints a spec takes any document of a spec and prints the one the spec is written
as, with all that the document left to the function it names. What is printed is a document of the
same spec, so that it is printed again byte for byte.

## Main definitions

* `Command.Prints`: what is printed for a document

## Main results

* `Command.prints_of_ofJson`: a document of a spec is printed as the spec is written
* `Command.spec_normalizes`: specs are in range, survive being written, and are printed in one way
-/

namespace Strongbox.Command

open Strongbox.Derivation (Draft Properties Spec)
open Text.Utf8 (encode)

/-- Whatever else is around the command, it prints `output` for a file that holds `text`, and leaves
all files as they are. -/
def Prints (text output : String) : Prop :=
  ∀ (verbose : Bool) (around : Surroundings) (path : String) (files : Files),
    around.read path = .ok (encode text) →
    ∃ log, act verbose (.spec path) around files = (⟨0, encode output, log, []⟩, files)

/-- What is printed of a spec. -/
def printed (spec : Spec) : String := spec.document.pretty ++ "\n"

theorem outcome_loadSpec {around : Surroundings} {path text : String} {spec : Spec}
    (hfile : around.read path = .ok (encode text)) (hspec : Spec.ofJson text = .ok spec) :
    (around.loadSpec path).outcome = .ok spec := by
  have hread : (around.readFile path).outcome = .ok (encode text) := by
    rw [Surroundings.readFile, hfile]
    rfl
  simp only [Surroundings.loadSpec, hread, bind, Text.Utf8.decode_encode, within,
    Journal.outcome_mapError, Journal.outcome_specOfJson, hspec]
  rfl

/-- **A document of a spec is printed as the spec is written.** -/
theorem prints_of_ofJson {text : String} {spec : Spec} (h : Spec.ofJson text = .ok spec) :
    Prints text (printed spec) := by
  intro verbose around path files hfile
  have hrun : (deliver around (.spec path)).outcome =
      .ok { destination := none, data := encode (printed spec), report := none } := by
    rw [deliver, Surroundings.spec, Journal.outcome_bind, outcome_loadSpec hfile h]
    rfl
  refine ⟨lines verbose ((deliver around (.spec path)).events ++ []), ?_⟩
  rw [act]
  simp only [hrun, Delivery.write]
  rfl

/-- What is printed of a spec is a document of it. -/
theorem ofJson_printed (spec : Spec) : Spec.ofJson (printed spec) = .ok spec := by
  have hline : encode "\n" = [0x0A] := rfl
  have htext : encode (printed spec) = [] ++ encode spec.document.pretty ++ [0x0A] := by
    rw [printed, Text.Utf8.encode_append, List.nil_append, hline]
  exact spec.ofJson_spelled htext .nil (Json.Document.spells_pretty spec.document)
    (.cons rfl .nil)

/-- **Specs survive being written, and are printed in one way.** The numbers of a spec are in range,
and neither the constructors nor drafts make a spec of others. A spec is written with the members
its function uses, and comes back from both layouts and from its properties. Whatever document of a
spec is printed, the output is a document of the same spec, and is printed as it is. -/
theorem spec_normalizes :
    (∀ digest keyLength, (∃ spec, Spec.makeLegacy digest keyLength = .ok spec) ↔
      1 ≤ keyLength ∧ keyLength ≤ 2 ^ 32 - 1) ∧
    (∀ digest keyLength iterations,
      (∃ spec, Spec.makeIteratedDigest digest keyLength iterations = .ok spec) ↔
        (1 ≤ keyLength ∧ keyLength ≤ 2 ^ 32 - 1) ∧ 1 ≤ iterations.toNat) ∧
    (∀ digest keyLength iterations blockSize parallelization,
      (∃ spec, Spec.makeMemoryHard digest keyLength iterations blockSize parallelization =
        .ok spec) ↔
        (1 ≤ keyLength ∧ keyLength ≤ 2 ^ 32 - 1) ∧
          1 ≤ iterations.toNat ∧ 1 ≤ blockSize.toNat ∧ 1 ≤ parallelization.toNat) ∧
    (∀ draft : Draft, (∃ spec, draft.build = .ok spec) ↔ draft.InRange) ∧
    (∀ spec : Spec, spec.InRange ∧ spec.document = .object spec.members ∧
      Spec.ofJson spec.toJson = .ok spec ∧ Spec.decode spec.toJson = .ok spec ∧
      Spec.ofJson spec.document.pretty = .ok spec ∧
      Spec.ofProperties (Properties.ofSpec spec) = .ok spec) ∧
    (∀ (text : String) (spec : Spec), Spec.ofJson text = .ok spec →
      Prints text (printed spec) ∧ Spec.ofJson (printed spec) = .ok spec ∧
        Prints (printed spec) (printed spec)) := by
  refine ⟨fun _ _ => Spec.exists_makeLegacy_iff, fun _ _ _ => Spec.exists_makeIteratedDigest_iff,
    fun _ _ _ _ _ => Spec.exists_makeMemoryHard_iff, fun _ => Draft.exists_build_iff,
    fun spec => ?_, fun text spec h => ?_⟩
  · exact ⟨spec.inRange, spec.document_eq, spec.ofJson_toJson, spec.decode_toJson,
      spec.ofJson_pretty, spec.ofProperties_ofSpec⟩
  · exact ⟨prints_of_ofJson h, ofJson_printed spec, prints_of_ofJson (ofJson_printed spec)⟩

/-- A document may name a function by its other name and leave all else to it. -/
theorem spec_normalizes_other_name :
    Spec.ofJson "\x7b\"function\":\"openssl\"\x7d" =
      .ok (.legacy .md5 ⟨16, by decide, by decide⟩) ∧
    Prints "\x7b\"function\":\"openssl\"\x7d"
      ("\x7b\n  \"function\": \"legacy\",\n  \"hashFunction\": \"MD5\",\n" ++
        "  \"derivedKeyLength\": 16\n\x7d\n") := by
  have hproperties := Properties.ofJson_toJson (.ofFunction "openssl")
  have hread : Spec.ofJson "\x7b\"function\":\"openssl\"\x7d" =
      .ok (.legacy .md5 ⟨16, by decide, by decide⟩) :=
    bind_eq_ok_iff.mpr ⟨.ofFunction "openssl",
      congrArg (Except.mapError Error.serialization) hproperties, rfl⟩
  obtain ⟨-, -, -, -, -, hprints⟩ := spec_normalizes
  exact ⟨hread, (hprints _ _ hread).1⟩

end Strongbox.Command
