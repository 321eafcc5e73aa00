import Strongbox.Proofs.Derivation.Pbkdf2
import Strongbox.Proofs.Derivation.Runnable

/-!
# Shorter keys are the beginnings of longer ones

Specs that differ in the length of a key only run alike, and the shorter of their keys is what the
longer one begins with: no block of a key depends on how many come after it, nor on where the last
one is cut, and the mixing of memory-hard keys is over before the length comes in.

## Main definitions

* `Spec.withKeyLength`: a spec with another length of a key

## Main results

* `BytesToKey.take_fill`, `Pbkdf2.take_fill`, `Scrypt.take_fill`: less key material is the beginning
  of more
* `Kdf.fill_take`: the same for a derivation that can run
* `Kdf.deriveKey_take`: shorter keys are the beginnings of longer ones
-/

namespace Strongbox

namespace Derivation.Spec

/-- A spec with another length of a key. -/
def withKeyLength : Spec → Positive → Spec
  | legacy digest _, keyLength => legacy digest keyLength
  | iteratedDigest digest _ iterations, keyLength => iteratedDigest digest keyLength iterations
  | memoryHard digest _ iterations blockSize parallelization, keyLength =>
    memoryHard digest keyLength iterations blockSize parallelization

@[simp] theorem keyLength_withKeyLength (spec : Spec) (keyLength : Positive) :
    (spec.withKeyLength keyLength).keyLength = keyLength := by
  cases spec <;> rfl

/-- Whether a spec can run does not depend on the length of a key. -/
@[simp] theorem obstacle?_withKeyLength (spec : Spec) (keyLength : Positive) :
    (spec.withKeyLength keyLength).obstacle? = spec.obstacle? := by
  cases spec <;> rfl

end Derivation.Spec

open Strongbox.Derivation (Positive Spec)

/-! ## Key material -/

variable {password salt : Bytes} {short long : Nat}

/-- Less of the chained blocks is the beginning of more. -/
theorem BytesToKey.take_fill {digest : Digest} {slice other : Bytes}
    (h : slice.length ≤ other.length) :
    fill digest password salt slice =
      ((fill digest password salt other).1.take slice.length, .ok ()) := by
  -- as many blocks as the longer slice takes are enough for both
  have henough := digest.le_mul_hashLength other.length
  rw [fill_eq_take henough, fill_eq_take (Nat.le_trans h henough), List.take_take,
    Nat.min_eq_left h]

/-- Less of the iterated blocks is the beginning of more. -/
theorem Pbkdf2.take_fill {digest : Digest} {iterations : Nat} (hpos : 0 < iterations)
    (h : short ≤ long) :
    (fill digest iterations password salt long).take short =
      fill digest iterations password salt short := by
  have henough := digest.le_mul_hashLength long
  rw [fill_eq_take hpos henough, fill_eq_take hpos (Nat.le_trans h henough), List.take_take,
    Nat.min_eq_left h]

/-- What the lanes are mixed to does not depend on how much is made of it. -/
theorem Scrypt.take_fill {cost blockSize parallelization : Nat} (h : short ≤ long) :
    (fill cost blockSize parallelization password salt long).take short =
      fill cost blockSize parallelization password salt short :=
  Pbkdf2.take_fill Nat.one_pos h

namespace Kdf

/-- The length of a key does not come into what fills a slice. -/
theorem fill_withKeyLength {kdf kdf' : Kdf} {keyLength : Positive}
    (h : kdf'.spec = kdf.spec.withKeyLength keyLength) (length : Nat) :
    kdf'.fill password salt length = kdf.fill password salt length := by
  unfold fill
  rw [h]
  cases kdf.spec <;> rfl

/-- **Less key material is the beginning of more**, for every derivation that can run. -/
theorem fill_take {kdf : Kdf} {key : Bytes} (hpos : 0 < short) (h : short ≤ long)
    (hkey : kdf.fill password salt long = .ok key) :
    kdf.fill password salt short = .ok (key.take short) := by
  unfold fill at hkey ⊢
  cases hspec : kdf.spec with
  | legacy digest _ =>
    have hzeros : (List.replicate short (0 : UInt8)).length ≤
        (List.replicate long (0 : UInt8)).length := by
      rwa [List.length_replicate, List.length_replicate]
    simp only [hspec, filled_eq_ok_iff] at hkey ⊢
    rw [BytesToKey.take_fill hzeros, hkey, List.length_replicate]
  | iteratedDigest digest _ iterations =>
    simp only [hspec, Except.ok.injEq] at hkey ⊢
    rw [← hkey, Pbkdf2.take_fill iterations.pos h]
  | memoryHard _ _ iterations blockSize parallelization =>
    have hlong : long ≠ 0 := Nat.ne_of_gt (Nat.lt_of_lt_of_le hpos h)
    simp only [hspec, if_neg hlong, if_neg (Nat.ne_of_gt hpos), Except.ok.injEq] at hkey ⊢
    rw [← hkey, Scrypt.take_fill h]

/-- **Shorter keys are the beginnings of longer ones**: of two specs that differ in the length of a
key only, both can run if one can, and of every password and every salt the shorter key is what the
longer one begins with. -/
theorem deriveKey_take {spec spec' : Spec} (hsame : spec' = spec.withKeyLength spec'.keyLength)
    (hle : spec.keyLength.val ≤ spec'.keyLength.val) {kdf : Kdf} (h : spec.kdf = .ok kdf)
    (password salt : Bytes) :
    ∃ kdf' key key', spec'.kdf = .ok kdf' ∧ kdf.deriveKey password salt = .ok key ∧
      kdf'.deriveKey password salt = .ok key' ∧ key.bytes.length = spec.keyLength.val ∧
      key'.bytes.length = spec'.keyLength.val ∧
      key.bytes = key'.bytes.take spec.keyLength.val := by
  have hspec := Spec.spec_of_kdf h
  obtain ⟨kdf', h'⟩ : ∃ kdf', spec'.kdf = .ok kdf' := by
    rw [Spec.exists_kdf_iff, hsame, Spec.obstacle?_withKeyLength, ← hspec]
    exact kdf.runs
  have hspec' := Spec.spec_of_kdf h'
  have hlong : kdf'.keyLength = spec'.keyLength.val := by rw [Kdf.keyLength, hspec']
  have hshort : kdf.keyLength = spec.keyLength.val := by rw [Kdf.keyLength, hspec]
  obtain ⟨key, hkey, hlength⟩ := kdf.exists_deriveKey password salt
  obtain ⟨key', hkey', hlength'⟩ := kdf'.exists_deriveKey password salt
  refine ⟨kdf', key, key', h', hkey, hkey', hlength.trans hshort, hlength'.trans hlong, ?_⟩
  have hmore := kdf'.deriveKey_eq_ok_iff.mp hkey'
  rw [fill_withKeyLength (hspec'.trans (hspec ▸ hsame)), hlong] at hmore
  have hless := kdf.deriveKey_eq_ok_iff.mp hkey
  rw [hshort, fill_take spec.keyLength.pos hle hmore] at hless
  exact (Except.ok.inj hless).symm

/-- Keys of 20 and of 70 bytes by memory-hard mixing, the longer one of more than two blocks. -/
theorem deriveKey_take_of_seventy :
    let spec : Spec := .memoryHard .sha256 ⟨20, by decide, by decide⟩ ⟨16, by decide, by decide⟩
      ⟨1, by decide, by decide⟩ ⟨2, by decide, by decide⟩
    let spec' : Spec := .memoryHard .sha256 ⟨70, by decide, by decide⟩ ⟨16, by decide, by decide⟩
      ⟨1, by decide, by decide⟩ ⟨2, by decide, by decide⟩
    spec' = spec.withKeyLength spec'.keyLength ∧ spec.keyLength.val ≤ spec'.keyLength.val ∧
      ∃ kdf kdf' key key', spec.kdf = .ok kdf ∧ spec'.kdf = .ok kdf' ∧
        kdf.deriveKey [0x70] [0x73] = .ok key ∧ kdf'.deriveKey [0x70] [0x73] = .ok key' ∧
        key'.bytes.length = 70 ∧ key.bytes = key'.bytes.take 20 := by
  intro spec spec'
  have hruns : spec.kdf = .ok ⟨spec, rfl⟩ := rfl
  have hsame : spec' = spec.withKeyLength spec'.keyLength := rfl
  have hle : spec.keyLength.val ≤ spec'.keyLength.val := by decide
  obtain ⟨kdf', key, key', hruns', hkey, hkey', -, hlength, htake⟩ :=
    deriveKey_take hsame hle hruns [0x70] [0x73]
  exact ⟨hsame, hle, _, kdf', key, key', hruns, hruns', hkey, hkey', hlength, htake⟩

end Kdf

end Strongbox
