import Mathlib.Algebra.Group.Nat.Defs
import Strongbox.Naming
import Strongbox.Proofs.Derivation.Properties
import Strongbox.Proofs.Outcome

/-!
# Specs read back

Which numbers make a spec, and how a spec is written: with the members its function uses and no
others. The properties of a spec say all there is to say about it, so that nothing falls back on
what its function prescribes when they are read, and the spec comes back from every spelling.

## Main definitions

* `Spec.InRange`, `Draft.InRange`: the range of lengths and counts
* `Spec.members`: the members a spec is written with

## Main results

* `Spec.exists_makeLegacy_iff` and the like, `Draft.exists_build_iff`: which numbers make a spec
* `Spec.document_eq`: the members of a spec are those its function uses
* `Spec.ofProperties_ofSpec`: the properties of a spec make it again
* `Spec.ofJson_spelled`, `Spec.decode_spelled`: a spec is read back from every spelling
-/

namespace Strongbox

open Json

theorem exists_bind_eq_ok_iff {α β : Type} {x : Result α} {f : α → Result β} :
    (∃ b, x >>= f = .ok b) ↔ ∃ a, x = .ok a ∧ ∃ b, f a = .ok b := by
  simp only [bind_eq_ok_iff]
  exact ⟨fun ⟨b, a, ha, hb⟩ => ⟨a, ha, b, hb⟩, fun ⟨a, ha, b, hb⟩ => ⟨b, a, ha, hb⟩⟩

theorem exists_pure_eq_ok {α : Type} (a : α) : ∃ b, (pure a : Result α) = .ok b := ⟨a, rfl⟩

theorem Digest.ofName_name (digest : Digest) : ofName digest.name = .ok digest := by
  cases digest <;> rfl

namespace Derivation

theorem Function.ofName_name (function : Function) : ofName function.name = .ok function := by
  cases function <;> rfl

/-! ## Which numbers make a spec -/

namespace Positive

theorem exists_val_iff {n : Nat} : (∃ p : Positive, p.val = n) ↔ 1 ≤ n ∧ n ≤ 2 ^ 32 - 1 := by
  constructor
  · rintro ⟨p, rfl⟩
    exact ⟨p.pos, Nat.le_sub_one_of_lt p.lt⟩
  · rintro ⟨hpos, hle⟩
    exact ⟨⟨n, hpos, Nat.lt_of_le_sub_one (by decide) hle⟩, rfl⟩

theorem exists_ofLength_iff {n : Nat} :
    (∃ p, ofLength n = .ok p) ↔ 1 ≤ n ∧ n ≤ 2 ^ 32 - 1 := by
  rw [← exists_val_iff]
  exact exists_congr fun p => ofLength_eq_ok_iff

theorem exists_ofCount_iff (count : Count) {n : UInt32} :
    (∃ p, ofCount count n = .ok p) ↔ 1 ≤ n.toNat := by
  have hle : n.toNat ≤ 2 ^ 32 - 1 := Nat.le_sub_one_of_lt n.toNat_lt_size
  calc (∃ p, ofCount count n = .ok p)
    _ ↔ ∃ p : Positive, p.val = n.toNat := exists_congr fun p => ofCount_eq_ok_iff
    _ ↔ 1 ≤ n.toNat ∧ n.toNat ≤ 2 ^ 32 - 1 := exists_val_iff
    _ ↔ 1 ≤ n.toNat := and_iff_left hle

end Positive

namespace Spec

/-- The range of lengths and counts. -/
structure InRange (spec : Spec) : Prop where
  keyLength : 1 ≤ spec.keyLength.val ∧ spec.keyLength.val ≤ 2 ^ 32 - 1
  iterations : ∀ n ∈ spec.iterations, 1 ≤ n.val
  blockSize : ∀ n ∈ spec.blockSize, 1 ≤ n.val
  parallelization : ∀ n ∈ spec.parallelization, 1 ≤ n.val

theorem inRange (spec : Spec) : spec.InRange where
  keyLength := Positive.exists_val_iff.mp ⟨_, rfl⟩
  iterations n _ := n.pos
  blockSize n _ := n.pos
  parallelization n _ := n.pos

variable {digest : Digest} {keyLength : Nat} {iterations blockSize parallelization : UInt32}

theorem exists_makeLegacy_iff :
    (∃ spec, makeLegacy digest keyLength = .ok spec) ↔
      1 ≤ keyLength ∧ keyLength ≤ 2 ^ 32 - 1 := by
  rw [makeLegacy, exists_bind_eq_ok_iff]
  simp only [exists_pure_eq_ok, and_true, Positive.exists_ofLength_iff]

theorem exists_makeIteratedDigest_iff :
    (∃ spec, makeIteratedDigest digest keyLength iterations = .ok spec) ↔
      (1 ≤ keyLength ∧ keyLength ≤ 2 ^ 32 - 1) ∧ 1 ≤ iterations.toNat := by
  rw [makeIteratedDigest]
  -- each check succeeds or not whatever the others gave
  simp only [exists_bind_eq_ok_iff, exists_pure_eq_ok, and_true, exists_and_right,
    Positive.exists_ofLength_iff, Positive.exists_ofCount_iff]

theorem exists_makeMemoryHard_iff :
    (∃ spec, makeMemoryHard digest keyLength iterations blockSize parallelization = .ok spec) ↔
      (1 ≤ keyLength ∧ keyLength ≤ 2 ^ 32 - 1) ∧
        1 ≤ iterations.toNat ∧ 1 ≤ blockSize.toNat ∧ 1 ≤ parallelization.toNat := by
  rw [makeMemoryHard]
  simp only [exists_bind_eq_ok_iff, exists_pure_eq_ok, and_true, exists_and_right,
    Positive.exists_ofLength_iff, Positive.exists_ofCount_iff]

end Spec

namespace Draft

variable {draft : Draft}

/-- What has to hold of the numbers of a draft, those it falls back on among them. -/
structure InRange (draft : Draft) : Prop where
  keyLength : 1 ≤ draft.keyLength.getD draft.function.defaultKeyLength ∧
    draft.keyLength.getD draft.function.defaultKeyLength ≤ 2 ^ 32 - 1
  iterations : draft.function ≠ .legacy → ∃ n, draft.iterations = some n ∧ 1 ≤ n.toNat
  blockSize : draft.function = .memoryHard →
    1 ≤ (draft.blockSize.getD defaultBlockSize).toNat
  parallelization : draft.function = .memoryHard →
    1 ≤ (draft.parallelization.getD defaultParallelization).toNat

theorem iterationsDue_eq_ok_iff {n : UInt32} :
    draft.iterationsDue = .ok n ↔ draft.iterations = some n := by
  rw [iterationsDue]
  cases draft.iterations with
  | none => exact ⟨fun h => (nomatch h), fun h => (nomatch h)⟩
  | some m =>
    exact ⟨fun h => congrArg some (Except.ok.inj h),
      fun h => congrArg Except.ok (Option.some.inj h)⟩

/-- A draft makes a spec if the numbers its function uses are in range. -/
theorem exists_build_iff : (∃ spec, draft.build = .ok spec) ↔ draft.InRange := by
  let digest := draft.digest.getD draft.function.defaultDigest
  let keyLength := draft.keyLength.getD draft.function.defaultKeyLength
  cases hfunction : draft.function with
  | legacy =>
    have hbuild : draft.build = Spec.makeLegacy digest keyLength := by
      rw [build]
      simp only [hfunction, digest, keyLength]
    rw [hbuild, Spec.exists_makeLegacy_iff]
    constructor
    · intro h
      refine ⟨h, fun hne => absurd hfunction hne, fun heq => ?_, fun heq => ?_⟩
      all_goals cases hfunction.symm.trans heq
    · exact InRange.keyLength
  | iteratedDigest =>
    have hbuild : draft.build =
        draft.iterationsDue >>= fun n => Spec.makeIteratedDigest digest keyLength n := by
      rw [build]
      simp only [hfunction, digest, keyLength]
    rw [hbuild, exists_bind_eq_ok_iff]
    simp only [Spec.exists_makeIteratedDigest_iff, iterationsDue_eq_ok_iff]
    constructor
    · rintro ⟨n, hn, hlength, hpos⟩
      refine ⟨hlength, fun _ => ⟨n, hn, hpos⟩, fun heq => ?_, fun heq => ?_⟩
      all_goals cases hfunction.symm.trans heq
    · intro h
      obtain ⟨n, hn, hpos⟩ := h.iterations (by rw [hfunction]; decide)
      exact ⟨n, hn, h.keyLength, hpos⟩
  | memoryHard =>
    have hbuild : draft.build = draft.iterationsDue >>= fun n =>
        Spec.makeMemoryHard digest keyLength n (draft.blockSize.getD defaultBlockSize)
          (draft.parallelization.getD defaultParallelization) := by
      rw [build]
      simp only [hfunction, digest, keyLength]
    rw [hbuild, exists_bind_eq_ok_iff]
    simp only [Spec.exists_makeMemoryHard_iff, iterationsDue_eq_ok_iff]
    constructor
    · rintro ⟨n, hn, hlength, hpos, hblock, hlanes⟩
      exact ⟨hlength, fun _ => ⟨n, hn, hpos⟩, fun _ => hblock, fun _ => hlanes⟩
    · intro h
      obtain ⟨n, hn, hpos⟩ := h.iterations (by rw [hfunction]; decide)
      exact ⟨n, hn, h.keyLength, hpos, h.blockSize hfunction, h.parallelization hfunction⟩

end Draft

namespace Spec

/-! ## How a spec is written -/

/-- The members a spec is written with: those its function uses. -/
def members : Spec → List (String × Document)
  | .legacy digest keyLength =>
    [("function", .string "legacy"), ("hashFunction", .string digest.name),
      ("derivedKeyLength", .number keyLength.val)]
  | .iteratedDigest digest keyLength iterations =>
    [("function", .string "iterated-digest"), ("hashFunction", .string digest.name),
      ("derivedKeyLength", .number keyLength.val), ("iterations", .number iterations.val)]
  | .memoryHard digest keyLength iterations blockSize parallelization =>
    [("function", .string "memory-hard"), ("hashFunction", .string digest.name),
      ("derivedKeyLength", .number keyLength.val), ("iterations", .number iterations.val),
      ("blockSize", .number blockSize.val), ("parallelization", .number parallelization.val)]

theorem toNat_wordOf (n : Positive) : (Properties.wordOf n).toNat = n.val :=
  UInt32.toNat_ofNat_of_lt' n.lt

theorem numberDocument_wordOf (n : Positive) :
    Properties.numberDocument (Properties.wordOf n) = .number n.val := by
  rw [Properties.numberDocument, toNat_wordOf]

/-- **A spec is written with the members its function uses**, and with no others. -/
theorem document_eq (spec : Spec) : spec.document = .object spec.members := by
  cases spec <;>
    simp [document, Properties.document, Properties.ofSpec, Document.member?, members, function,
      Function.name, Spec.digest, Spec.keyLength, Spec.iterations, Spec.blockSize,
      Spec.parallelization, numberDocument_wordOf]

/-! ## How a spec is read back

### From its properties -/

section

variable (digest : Digest) (keyLength iterations blockSize parallelization : Positive)

theorem ofLength_val : Positive.ofLength keyLength.val = .ok keyLength :=
  Positive.ofLength_eq_ok_iff.mpr rfl

theorem ofCount_wordOf (count : Count) (n : Positive) :
    Positive.ofCount count (Properties.wordOf n) = .ok n :=
  Positive.ofCount_eq_ok_iff.mpr (toNat_wordOf n).symm

theorem makeLegacy_val : makeLegacy digest keyLength.val = .ok (.legacy digest keyLength) := by
  rw [makeLegacy, ofLength_val]
  rfl

theorem makeIteratedDigest_val :
    makeIteratedDigest digest keyLength.val (Properties.wordOf iterations) =
      .ok (.iteratedDigest digest keyLength iterations) := by
  rw [makeIteratedDigest, ofLength_val, ofCount_wordOf]
  rfl

theorem makeMemoryHard_val :
    makeMemoryHard digest keyLength.val (Properties.wordOf iterations)
      (Properties.wordOf blockSize) (Properties.wordOf parallelization) =
      .ok (.memoryHard digest keyLength iterations blockSize parallelization) := by
  rw [makeMemoryHard, ofLength_val, ofCount_wordOf, ofCount_wordOf, ofCount_wordOf]
  rfl

end

/-- The properties of a spec set everything its function uses. -/
theorem draft_ofSpec (spec : Spec) :
    Draft.ofProperties (Properties.ofSpec spec) = .ok
      { function := spec.function
        digest := some spec.digest
        keyLength := some spec.keyLength.val
        iterations := spec.iterations.map Properties.wordOf
        blockSize := spec.blockSize.map Properties.wordOf
        parallelization := spec.parallelization.map Properties.wordOf } := by
  have hname : Draft.ofName spec.function.name = .ok (Draft.ofFunction spec.function) := by
    rw [Draft.ofName, Function.ofName_name]
    rfl
  have hdigest : (Draft.ofFunction spec.function).setDigestName spec.digest.name =
      .ok { Draft.ofFunction spec.function with digest := some spec.digest } := by
    rw [Draft.setDigestName, Digest.ofName_name]
    rfl
  refine bind_eq_ok_iff.mpr ⟨_, hname, bind_eq_ok_iff.mpr ⟨_, hdigest, ?_⟩⟩
  simp [Properties.ofSpec, Draft.ofFunction, toNat_wordOf, pure, Except.pure]

/-- **The properties of a spec make it again.** -/
theorem ofProperties_ofSpec (spec : Spec) : ofProperties (Properties.ofSpec spec) = .ok spec := by
  refine bind_eq_ok_iff.mpr ⟨_, draft_ofSpec spec, ?_⟩
  cases spec with
  | legacy digest keyLength => exact makeLegacy_val digest keyLength
  | iteratedDigest digest keyLength iterations =>
    exact makeIteratedDigest_val digest keyLength iterations
  | memoryHard digest keyLength iterations blockSize parallelization =>
    exact makeMemoryHard_val digest keyLength iterations blockSize parallelization

/-! ### From a document -/

/-- **A spec is read back from every spelling of its document**, white space around it included. -/
theorem ofJson_spelled (spec : Spec) {text : String} {before bytes after : Bytes}
    (htext : Text.Utf8.encode text = before ++ bytes ++ after) (hbefore : Blank before)
    (hbytes : Spells spec.document bytes) (hafter : Blank after) : ofJson text = .ok spec := by
  have hread : Properties.ofJson text = .ok (Properties.ofSpec spec) := by
    rw [Properties.ofJson, htext]
    exact Properties.decode_spelled .text _ hbefore hbytes hafter
  refine bind_eq_ok_iff.mpr ⟨Properties.ofSpec spec, ?_, ofProperties_ofSpec spec⟩
  rw [hread]
  rfl

/-- The same where a spec that is refused is a fault of the document. -/
theorem decode_spelled (spec : Spec) {text : String} {before bytes after : Bytes}
    (htext : Text.Utf8.encode text = before ++ bytes ++ after) (hbefore : Blank before)
    (hbytes : Spells spec.document bytes) (hafter : Blank after) : decode text = .ok spec := by
  have hproperties : Reads (Properties.schema.read .text maxNesting) spec.document
      (Properties.ofSpec spec) := Properties.reads_document .text _ _
  have hread : Reads reader spec.document spec := by
    refine hproperties.refined ?_
    rw [ofProperties_ofSpec]
    rfl
  rw [decode, htext]
  exact document_of_takes (hread hbytes) hbefore hafter

theorem ofJson_toJson (spec : Spec) : ofJson spec.toJson = .ok spec :=
  spec.ofJson_spelled (by simp [toJson]) .nil (Document.spells_compact spec.document) .nil

theorem decode_toJson (spec : Spec) : decode spec.toJson = .ok spec :=
  spec.decode_spelled (by simp [toJson]) .nil (Document.spells_compact spec.document) .nil

theorem ofJson_pretty (spec : Spec) : ofJson spec.document.pretty = .ok spec :=
  spec.ofJson_spelled (by simp) .nil (Document.spells_pretty spec.document) .nil

end Spec

end Derivation

end Strongbox
