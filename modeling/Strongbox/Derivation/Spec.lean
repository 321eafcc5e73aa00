import Strongbox.Derivation.Function
/-!
# Derivation specs

A spec says which derivation function is meant and with which parameters. Lengths and counts are
positive and fit into 32 bits; the constructors that take plain numbers check that, the length
before the counts and the counts in order.

## Main definitions

* `Derivation.Positive`: the positive numbers below `2 ^ 32`
* `Derivation.Spec`: a function with its parameters
* `Spec.makeLegacy`, `Spec.makeIteratedDigest`, `Spec.makeMemoryHard`: specs of plain numbers

## Main results

* `Positive.ofLength_eq_ok_iff`, `Positive.ofCount_eq_ok_iff`: which numbers pass
-/

namespace Strongbox.Derivation

/-- A positive number below `2 ^ 32`. -/
structure Positive where
  /-- The number. -/
  val : Nat
  /-- It is not zero. -/
  pos : 0 < val
  /-- It fits into 32 bits. -/
  lt : val < UInt32.size
deriving DecidableEq

namespace Positive

/-- A key length. -/
def ofLength (n : Nat) : Result Positive :=
  if h : n = 0 then .error (.invalidInput .zeroLength)
  else if h' : n < UInt32.size then .ok ⟨n, Nat.pos_of_ne_zero h, h'⟩
  else .error (.invalidInput (.lengthTooLarge n))

/-- A count. -/
def ofCount (count : Count) (n : UInt32) : Result Positive :=
  if h : n.toNat = 0 then .error (.invalidInput (.zeroCount count))
  else .ok ⟨n.toNat, Nat.pos_of_ne_zero h, n.toNat_lt_size⟩

theorem ofLength_eq_ok_iff {n : Nat} {p : Positive} : ofLength n = .ok p ↔ p.val = n := by
  obtain ⟨v, hv, hv'⟩ := p
  unfold ofLength
  constructor
  · intro h
    split at h
    · cases h
    · split at h <;> cases h
      rfl
  · rintro rfl
    rw [dif_neg (Nat.pos_iff_ne_zero.1 hv), dif_pos hv']

theorem ofCount_eq_ok_iff {count : Count} {n : UInt32} {p : Positive} :
    ofCount count n = .ok p ↔ p.val = n.toNat := by
  obtain ⟨v, hv, hv'⟩ := p
  unfold ofCount
  constructor
  · intro h
    split at h <;> cases h
    rfl
  · rintro rfl
    simp [Nat.pos_iff_ne_zero.1 hv]

end Positive

/-- Which derivation function is meant, and with which parameters. -/
inductive Spec where
  /-- Chained digests. -/
  | legacy (digest : Digest) (keyLength : Positive)
  /-- Iterated keyed digests. -/
  | iteratedDigest (digest : Digest) (keyLength iterations : Positive)
  /-- Memory-hard mixing; the cost is the number of iterations. -/
  | memoryHard (digest : Digest) (keyLength iterations blockSize parallelization : Positive)
deriving DecidableEq

namespace Spec

/-- A spec of chained digests. -/
def makeLegacy (digest : Digest) (keyLength : Nat) : Result Spec := do
  return .legacy digest (← Positive.ofLength keyLength)

/-- A spec of iterated keyed digests. -/
def makeIteratedDigest (digest : Digest) (keyLength : Nat) (iterations : UInt32) :
    Result Spec := do
  let keyLength ← Positive.ofLength keyLength
  let iterations ← Positive.ofCount .iterations iterations
  return .iteratedDigest digest keyLength iterations

/-- A spec of memory-hard mixing. -/
def makeMemoryHard (digest : Digest) (keyLength : Nat)
    (iterations blockSize parallelization : UInt32) : Result Spec := do
  let keyLength ← Positive.ofLength keyLength
  let iterations ← Positive.ofCount .iterations iterations
  let blockSize ← Positive.ofCount .blockSize blockSize
  let parallelization ← Positive.ofCount .parallelization parallelization
  return .memoryHard digest keyLength iterations blockSize parallelization

/-- The function that is meant. -/
def function : Spec → Function
  | .legacy .. => .legacy
  | .iteratedDigest .. => .iteratedDigest
  | .memoryHard .. => .memoryHard

/-- The digest. -/
def digest : Spec → Digest
  | .legacy digest _ => digest
  | .iteratedDigest digest .. => digest
  | .memoryHard digest .. => digest

/-- The length of a key in bytes. -/
def keyLength : Spec → Positive
  | .legacy _ keyLength => keyLength
  | .iteratedDigest _ keyLength _ => keyLength
  | .memoryHard _ keyLength .. => keyLength

/-- The number of iterations, or the cost, if the function has one. -/
def iterations : Spec → Option Positive
  | .legacy .. => none
  | .iteratedDigest _ _ iterations => some iterations
  | .memoryHard _ _ iterations .. => some iterations

/-- The size of a block, if the function has one. -/
def blockSize : Spec → Option Positive
  | .memoryHard _ _ _ blockSize _ => some blockSize
  | _ => none

/-- The number of lanes, if the function has one. -/
def parallelization : Spec → Option Positive
  | .memoryHard _ _ _ _ parallelization => some parallelization
  | _ => none

/-- What is shown of a positive number. -/
def numberOutline (n : Positive) : Text.Outline := .nat n.val

/-- What is shown of the parameters. -/
def parametersOutline : Spec → Text.Outline
  | .legacy digest keyLength =>
    .record "LegacySpec"
      [("digest", digest.outline), ("derived_key_length", numberOutline keyLength)] true
  | .iteratedDigest digest keyLength iterations =>
    .record "IteratedDigestSpec"
      [("digest", digest.outline), ("derived_key_length", numberOutline keyLength),
        ("iterations", numberOutline iterations)] true
  | .memoryHard digest keyLength iterations blockSize parallelization =>
    .record "MemoryHardSpec"
      [("digest", digest.outline), ("derived_key_length", numberOutline keyLength),
        ("iterations", numberOutline iterations), ("block_size", numberOutline blockSize),
        ("parallelization", numberOutline parallelization)] true

/-- What is shown of a spec. -/
def outline (spec : Spec) : Text.Outline :=
  match spec with
  | .legacy .. => .wrap "Legacy" spec.parametersOutline
  | .iteratedDigest .. => .wrap "IteratedDigest" spec.parametersOutline
  | .memoryHard .. => .wrap "MemoryHard" spec.parametersOutline

end Spec

end Strongbox.Derivation
