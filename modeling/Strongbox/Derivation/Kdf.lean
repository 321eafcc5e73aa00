import Strongbox.Derivation.BytesToKey
import Strongbox.Derivation.Scrypt
import Strongbox.Derivation.Spec
import Strongbox.Secret
/-!
# Runnable derivations

Not every spec can run: the memory-hard function is bound to one digest, and its cost, block size
and number of lanes limit each other. A runnable derivation is a spec without such an obstacle.

## Main definitions

* `Derivation.logCost`: a cost by its logarithm
* `Spec.obstacle?`: why a spec cannot run
* `Kdf`: a spec that can run, `Spec.kdf`: the derivation of a spec
* `Kdf.fill`, `Kdf.deriveKey`: making keys
* `Kdf.overwrite`, `Kdf.overwriteAt`, `Kdf.deriveKeyAt`: making keys in place
-/

namespace Strongbox

namespace Derivation

/-- Whether a number is a power of two greater than one. -/
def isCost (n : Nat) : Bool := 2 ≤ n && Nat.pow 2 n.log2 = n

/-- The zero bits behind the last one bit of a number of `width` bits. -/
def trailingZeros : (width n : Nat) → Nat
  | 0, _ => 0
  | width + 1, n => if n % 2 = 1 then 0 else trailingZeros width (n / 2) + 1

/-- The logarithm of a cost, kept in a byte. -/
def logCost (cost : Nat) : UInt8 := (trailingZeros 32 cost).toUInt8

/-- Whether the parameters of the memory-hard function fit each other; the cost is given by its
logarithm. -/
def parametersFit (logCost blockSize parallelization : Nat) : Bool :=
  logCost < 16 * blockSize && blockSize * parallelization < 0x40000000 &&
    128 * blockSize * Nat.pow 2 logCost < UInt64.size

/-- Why a spec cannot run. -/
def Spec.obstacle? : Spec → Option Error
  | .legacy .. => none
  | .iteratedDigest .. => none
  | .memoryHard digest _ iterations blockSize parallelization =>
    if digest ≠ .sha256 then some (.invalidValue "hashFunction" digest.name)
    else if !isCost iterations.val then some (.invalidInput (.cost iterations.val))
    else if !parametersFit (logCost iterations.val).toNat blockSize.val parallelization.val then
      some (.invalidInput .memoryHardParameters)
    else none

end Derivation

open Strongbox.Derivation (Spec)

/-- A derivation that can run. -/
structure Kdf where
  /-- What it runs. -/
  spec : Spec
  /-- Nothing stands against it. -/
  runs : spec.obstacle? = none
deriving DecidableEq

/-- The derivation of a spec. -/
def Derivation.Spec.kdf (spec : Spec) : Result Kdf :=
  match h : spec.obstacle? with
  | none => .ok ⟨spec, h⟩
  | some error => .error error

namespace Kdf

/-- The length of a key in bytes. -/
def keyLength (kdf : Kdf) : Nat := kdf.spec.keyLength.val

/-- What a slice holds that was filled, if that went well. -/
def filled : Bytes × Result Unit → Result Bytes
  | (slice, .ok ()) => .ok slice
  | (_, .error error) => .error error

theorem filled_eq_ok_iff {run : Bytes × Result Unit} {slice : Bytes} :
    filled run = .ok slice ↔ run = (slice, .ok ()) := by
  obtain ⟨bytes, outcome⟩ := run
  cases outcome with
  | ok => simp [filled]
  | error => simp [filled]

/-- Key material of `length` bytes; chained digests fill a slice of zeros with it. -/
def fill (kdf : Kdf) (password salt : Bytes) (length : Nat) : Result Bytes :=
  match kdf.spec with
  | .legacy digest _ => filled (BytesToKey.fill digest password salt (List.replicate length 0))
  | .iteratedDigest digest _ iterations =>
    .ok (Pbkdf2.fill digest iterations.val password salt length)
  | .memoryHard _ _ iterations blockSize parallelization =>
    if length = 0 then .error (.invalidInput .memoryHardLength)
    else .ok (Scrypt.fill iterations.val blockSize.val parallelization.val password salt length)

/-- A key. -/
def deriveKey (kdf : Kdf) (password salt : Bytes) : Result DerivedKey := do
  return ⟨← kdf.fill password salt kdf.keyLength⟩

/-- Fills a slice with key material, whatever it holds, and gives the slice as it is afterwards,
with how that went. Chained digests are written block by block, the other keys at once. -/
def overwrite (kdf : Kdf) (password salt slice : Bytes) : Bytes × Result Unit :=
  match kdf.spec with
  | .legacy digest _ => BytesToKey.fill digest password salt slice
  | .iteratedDigest .. | .memoryHard .. =>
    match kdf.fill password salt slice.length with
    | .ok key => (key, .ok ())
    | .error error => (slice, .error error)

/-- Writes a key into a buffer from an offset on, if there is room, and gives the buffer as it is
afterwards, with how that went. -/
def overwriteAt (kdf : Kdf) (password salt buffer : Bytes) (offset : Nat) : Bytes × Result Unit :=
  let available := Bytes.room buffer offset
  if available < kdf.keyLength then (buffer, .error (.bufferTooShort kdf.keyLength available))
  else
    let (slice, outcome) := kdf.overwrite password salt (Bytes.slice buffer offset kdf.keyLength)
    (Bytes.splice buffer offset slice, outcome)

/-- The buffer with a key written into it from an offset on, if there is room. -/
def deriveKeyAt (kdf : Kdf) (password salt buffer : Bytes) (offset : Nat) : Result Bytes :=
  filled (kdf.overwriteAt password salt buffer offset)

/-- What is shown of a derivation by chained or iterated digests. -/
def outline? (kdf : Kdf) : Option Text.Outline :=
  match kdf.spec with
  | .legacy .. => some (.record "LegacyKdf" [("spec", kdf.spec.parametersOutline)] true)
  | .iteratedDigest .. => some (.record "Pbkdf2Kdf" [("spec", kdf.spec.parametersOutline)] true)
  | .memoryHard .. => none

end Kdf

end Strongbox
