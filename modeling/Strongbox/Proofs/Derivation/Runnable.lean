import Mathlib.Algebra.Group.Nat.Defs
import Mathlib.Logic.Basic
import Strongbox.Proofs.Derivation.Length

/-!
# Which specs can run

A derivation runs the spec it was made of. Nothing stands against specs of chained or iterated
digests; one of memory-hard mixing runs if its digest is the one the function is bound to, its
cost is a power of two greater than one, and its parameters fit each other. Then the logarithm that
is kept of the cost is right, and so are the lengths reckoned with it in words of 64 bits.

## Main definitions

* `Derivation.Fits`: the parameters with which memory-hard mixing can run

## Main results

* `Derivation.isCost_iff`: which numbers are costs
* `Derivation.toNat_logCost`: the logarithm that is kept of a cost
* `Spec.obstacle?_memoryHard`: when nothing stands against a spec of memory-hard mixing
* `Spec.spec_of_kdf`: the derivation of a spec runs that spec
* `Fits.toNat_lanes`, `Fits.toNat_table`: lengths in words of 64 bits do not run over
* `Spec.kdf_runs_iff_fits`: which specs run, what is told of the others, and that those that run
  always make a key
-/

namespace Strongbox.Derivation

/-- The parameters with which memory-hard mixing can run. -/
structure Fits (digest : Digest) (cost blockSize parallelization : Nat) : Prop where
  /-- The digest is the one the function is bound to. -/
  digest : digest = .sha256
  /-- The cost is greater than one. -/
  two_le : 2 ≤ cost
  /-- The cost is a power of two. -/
  power : ∃ k, cost = 2 ^ k
  /-- The table has fewer than `2 ^ (16 * blockSize)` states. -/
  states : cost.log2 < 16 * blockSize
  /-- The lanes have fewer than `2 ^ 30` pairs of blocks. -/
  lanes : blockSize * parallelization < 2 ^ 30
  /-- The length of the table fits into 64 bits. -/
  table : 128 * blockSize * cost < 2 ^ 64

/-! ## Costs -/

/-- A cost is a power of two greater than one. -/
theorem isCost_iff {n : Nat} : isCost n = true ↔ ∃ k, 1 ≤ k ∧ n = 2 ^ k := by
  rw [isCost, Bool.and_eq_true, decide_eq_true_eq, decide_eq_true_eq]
  constructor
  · rintro ⟨htwo, hpow⟩
    exact ⟨n.log2, (Nat.le_log2 (by omega)).mpr htwo, hpow.symm⟩
  · rintro ⟨k, hk, rfl⟩
    refine ⟨?_, by rw [Nat.log2_two_pow]; rfl⟩
    calc 2 = 2 ^ 1 := rfl
      _ ≤ 2 ^ k := Nat.pow_le_pow_right (by decide) hk

/-- A power of two ends with as many zero bits as its exponent says. -/
theorem trailingZeros_two_pow {width k : Nat} (h : k < width) :
    trailingZeros width (2 ^ k) = k := by
  induction width generalizing k with
  | zero => exact absurd h (Nat.not_lt_zero k)
  | succ width ih =>
    cases k with
    | zero => rfl
    | succ k =>
      have hodd : ¬2 ^ (k + 1) % 2 = 1 := by rw [Nat.pow_succ, Nat.mul_mod_left]; decide
      rw [trailingZeros, if_neg hodd, Nat.pow_succ, Nat.mul_div_cancel _ Nat.two_pos,
        ih (Nat.lt_of_succ_lt_succ h)]

/-- Below `2 ^ 32` the byte holds the logarithm of a cost. -/
theorem toNat_logCost {k : Nat} (h : k < 32) : (logCost (2 ^ k)).toNat = k := by
  rw [logCost, trailingZeros_two_pow h, Nat.toUInt8_eq, UInt8.toNat_ofNat',
    Nat.mod_eq_of_lt (by omega)]

/-- The byte holds the logarithm of a cost, and so the cost. -/
theorem two_pow_logCost {n : Nat} (h : isCost n = true) (hlt : n < 2 ^ 32) :
    2 ^ (logCost n).toNat = n ∧ (logCost n).toNat = n.log2 := by
  obtain ⟨k, -, rfl⟩ := isCost_iff.mp h
  rw [toNat_logCost ((Nat.pow_lt_pow_iff_right (by decide)).mp hlt), Nat.log2_two_pow]
  exact ⟨rfl, rfl⟩

/-- A cost is a power of two, and is not one. -/
theorem isCost_iff_two_le {n : Nat} : isCost n = true ↔ 2 ≤ n ∧ ∃ k, n = 2 ^ k := by
  rw [isCost, Bool.and_eq_true, decide_eq_true_eq, decide_eq_true_eq]
  constructor
  · rintro ⟨htwo, hpow⟩
    exact ⟨htwo, n.log2, hpow.symm⟩
  · rintro ⟨htwo, k, rfl⟩
    exact ⟨htwo, by rw [Nat.log2_two_pow]; rfl⟩

/-- The parameters fit each other as they do with the cost itself. -/
theorem parametersFit_iff {n r p : Nat} (h : isCost n = true) (hlt : n < 2 ^ 32) :
    parametersFit (logCost n).toNat r p = true ↔
      n.log2 < 16 * r ∧ r * p < 2 ^ 30 ∧ 128 * r * n < 2 ^ 64 := by
  obtain ⟨hpow, hlog⟩ := two_pow_logCost h hlt
  simp only [parametersFit, Bool.and_eq_true, decide_eq_true_eq, and_assoc]
  rw [Nat.pow_eq, hpow, hlog]
  rfl

/-- What is checked is what the parameters have to meet. -/
theorem fits_iff {digest : Digest} {cost r p : Nat} (hlt : cost < 2 ^ 32) :
    Fits digest cost r p ↔
      digest = .sha256 ∧ isCost cost = true ∧ parametersFit (logCost cost).toNat r p = true := by
  constructor
  · rintro ⟨hdigest, htwo, hpower, hstates, hlanes, htable⟩
    have hcost := isCost_iff_two_le.mpr ⟨htwo, hpower⟩
    exact ⟨hdigest, hcost, (parametersFit_iff hcost hlt).mpr ⟨hstates, hlanes, htable⟩⟩
  · rintro ⟨hdigest, hcost, hfit⟩
    obtain ⟨htwo, hpower⟩ := isCost_iff_two_le.mp hcost
    obtain ⟨hstates, hlanes, htable⟩ := (parametersFit_iff hcost hlt).mp hfit
    exact ⟨hdigest, htwo, hpower, hstates, hlanes, htable⟩

/-! ## Obstacles -/

namespace Spec

/-- When nothing stands against a spec of memory-hard mixing. -/
theorem obstacle?_memoryHard {digest : Digest}
    {keyLength iterations blockSize parallelization : Positive} :
    (memoryHard digest keyLength iterations blockSize parallelization).obstacle? = none ↔
      digest = .sha256 ∧ isCost iterations.val = true ∧
        parametersFit (logCost iterations.val).toNat blockSize.val parallelization.val = true := by
  rw [obstacle?]
  constructor
  · intro h
    split at h
    · cases h
    · next hdigest =>
      split at h
      · cases h
      · next hcost =>
        split at h
        · cases h
        · next hfit => exact ⟨not_not.mp hdigest, by simpa using hcost, by simpa using hfit⟩
  · rintro ⟨rfl, hcost, hfit⟩
    simp [hcost, hfit]

/-- The derivation of a spec runs that spec. -/
theorem spec_of_kdf {spec : Spec} {kdf : Kdf} (h : spec.kdf = .ok kdf) : kdf.spec = spec := by
  rw [Spec.kdf] at h
  split at h
  · obtain rfl := Except.ok.inj h
    rfl
  · cases h

variable {spec : Spec}

/-- What stands against a spec is told. -/
theorem kdf_of_obstacle {error : Error} (h : spec.obstacle? = some error) :
    spec.kdf = .error error := by
  rw [Spec.kdf]
  split
  · next hnone => cases hnone.symm.trans h
  · next heq => rw [Option.some.inj (heq.symm.trans h)]

/-- A spec runs if nothing stands against it. -/
theorem exists_kdf_iff : (∃ kdf, spec.kdf = .ok kdf) ↔ spec.obstacle? = none := by
  constructor
  · rintro ⟨kdf, hkdf⟩
    exact spec_of_kdf hkdf ▸ kdf.runs
  · intro hnone
    rw [Spec.kdf]
    split
    · exact ⟨_, rfl⟩
    · next heq => cases hnone.symm.trans heq

variable {digest : Digest} {keyLength iterations blockSize parallelization : Positive}

/-- A spec of memory-hard mixing runs if its parameters fit. -/
theorem exists_kdf_memoryHard_iff :
    (∃ kdf, (memoryHard digest keyLength iterations blockSize parallelization).kdf = .ok kdf) ↔
      Fits digest iterations.val blockSize.val parallelization.val :=
  exists_kdf_iff.trans (obstacle?_memoryHard.trans (fits_iff iterations.lt).symm)

/-- The digest is looked at first. -/
theorem kdf_of_digest (h : digest ≠ .sha256) :
    (memoryHard digest keyLength iterations blockSize parallelization).kdf =
      .error (.invalidValue "hashFunction" digest.name) :=
  kdf_of_obstacle (if_pos h)

/-- The cost is looked at next. -/
theorem kdf_of_cost (h : ¬(2 ≤ iterations.val ∧ ∃ k, iterations.val = 2 ^ k)) :
    (memoryHard .sha256 keyLength iterations blockSize parallelization).kdf =
      .error (.invalidInput (.cost iterations.val)) := by
  refine kdf_of_obstacle ?_
  rw [obstacle?, if_neg (not_not.mpr rfl), if_pos]
  rw [← isCost_iff_two_le] at h
  simpa using h

/-- How the parameters fit is looked at last. -/
theorem kdf_of_parameters (h : 2 ≤ iterations.val ∧ ∃ k, iterations.val = 2 ^ k)
    (h' : ¬Fits .sha256 iterations.val blockSize.val parallelization.val) :
    (memoryHard .sha256 keyLength iterations blockSize parallelization).kdf =
      .error (.invalidInput .memoryHardParameters) := by
  have hcost := isCost_iff_two_le.mpr h
  have hfit : parametersFit (logCost iterations.val).toNat blockSize.val parallelization.val =
      false := by
    rw [← Bool.not_eq_true]
    exact fun hfit => h' ((fits_iff iterations.lt).mpr ⟨rfl, hcost, hfit⟩)
  refine kdf_of_obstacle ?_
  rw [obstacle?, if_neg (not_not.mpr rfl), if_neg (by simp [hcost]), if_pos (by simp [hfit])]

end Spec

/-! ## Lengths in words of 64 bits -/

/-- A product that fits into 64 bits is reckoned right. -/
theorem toNat_mul_ofNat {a : UInt64} {n : Nat} (h : a.toNat * n < 2 ^ 64) :
    (a * UInt64.ofNat n).toNat = a.toNat * n := by
  rw [UInt64.toNat_mul, UInt64.toNat_ofNat', Nat.mul_mod_mod, Nat.mod_eq_of_lt h]

/-- The cost is reckoned back from its logarithm. -/
theorem shiftLeft_logCost {n : Nat} (h : isCost n = true) (hlt : n < 2 ^ 32) :
    (1 : UInt64) <<< (logCost n).toUInt64 = UInt64.ofNat n := by
  obtain ⟨k, -, rfl⟩ := isCost_iff.mp h
  have hk : k < 32 := (Nat.pow_lt_pow_iff_right (by decide)).mp hlt
  rw [← UInt64.toNat_inj, UInt64.toNat_shiftLeft, UInt8.toNat_toUInt64, toNat_logCost hk,
    UInt64.toNat_ofNat', Nat.mod_eq_of_lt (by omega : k < 64), UInt64.toNat_one, Nat.one_shiftLeft]

theorem toNat_block (blockSize : Positive) :
    (128 * UInt64.ofNat blockSize.val).toNat = 128 * blockSize.val := by
  have hlt : blockSize.val < 2 ^ 32 := blockSize.lt
  refine toNat_mul_ofNat ?_
  change 128 * blockSize.val < 2 ^ 64
  omega

theorem Fits.toNat_lanes {digest : Digest} {cost : Nat} {blockSize parallelization : Positive}
    (h : Fits digest cost blockSize.val parallelization.val) :
    (128 * UInt64.ofNat blockSize.val * UInt64.ofNat parallelization.val).toNat =
      128 * blockSize.val * parallelization.val := by
  have hlanes := h.lanes
  have hblock := toNat_block blockSize
  rw [toNat_mul_ofNat, hblock]
  rw [hblock, Nat.mul_assoc]
  omega

theorem Fits.toNat_table {digest : Digest} {iterations blockSize : Positive} {parallelization : Nat}
    (h : Fits digest iterations.val blockSize.val parallelization) :
    (128 * UInt64.ofNat blockSize.val *
        ((1 : UInt64) <<< (logCost iterations.val).toUInt64)).toNat =
      128 * blockSize.val * iterations.val := by
  have hblock := toNat_block blockSize
  rw [shiftLeft_logCost (isCost_iff_two_le.mpr ⟨h.two_le, h.power⟩) iterations.lt, toNat_mul_ofNat,
    hblock]
  rw [hblock]
  exact h.table

/-- **Which specs run, and what is told of the others.** Those of chained and of iterated digests
all do. One of memory-hard mixing runs exactly if its parameters fit; if not, the digest is told
before anything else, and then the cost before the rest. Of parameters that fit the logarithm that
is kept gives back the cost, and neither the length of all lanes nor that of the table runs over.
A derivation that runs has the spec it was made of, and makes a key of every password and salt. -/
theorem Spec.kdf_runs_iff_fits (spec : Spec) :
    (spec.function ≠ .memoryHard → ∃ kdf, spec.kdf = .ok kdf) ∧
    (∀ digest keyLength iterations blockSize parallelization,
      spec = memoryHard digest keyLength iterations blockSize parallelization →
      let N := iterations.val
      let r := blockSize.val
      let p := parallelization.val
      ((∃ kdf, spec.kdf = .ok kdf) ↔ Fits digest N r p) ∧
      (digest ≠ .sha256 → spec.kdf = .error (.invalidValue "hashFunction" digest.name)) ∧
      (digest = .sha256 → ¬(2 ≤ N ∧ ∃ k, N = 2 ^ k) →
        spec.kdf = .error (.invalidInput (.cost N))) ∧
      (digest = .sha256 → (2 ≤ N ∧ ∃ k, N = 2 ^ k) → ¬Fits digest N r p →
        spec.kdf = .error (.invalidInput .memoryHardParameters)) ∧
      (Fits digest N r p →
        2 ^ (logCost N).toNat = N ∧
        (128 * UInt64.ofNat r * UInt64.ofNat p).toNat = 128 * r * p ∧
        (128 * UInt64.ofNat r * ((1 : UInt64) <<< (logCost N).toUInt64)).toNat = 128 * r * N)) ∧
    ∀ kdf, spec.kdf = .ok kdf →
      kdf.spec = spec ∧ ∀ password salt, ∃ key, kdf.deriveKey password salt = .ok key := by
  refine ⟨fun hfunction => ?_, ?_, fun kdf hkdf => ⟨spec_of_kdf hkdf, fun password salt => ?_⟩⟩
  · cases spec with
    | legacy => exact exists_kdf_iff.mpr rfl
    | iteratedDigest => exact exists_kdf_iff.mpr rfl
    | memoryHard => exact absurd rfl hfunction
  · rintro digest keyLength iterations blockSize parallelization rfl N r p
    refine ⟨exists_kdf_memoryHard_iff, kdf_of_digest, ?_, ?_, fun hfits => ?_⟩
    · rintro rfl hcost
      exact kdf_of_cost hcost
    · rintro rfl hcost hfits
      exact kdf_of_parameters hcost hfits
    · have hcost := isCost_iff_two_le.mpr ⟨hfits.two_le, hfits.power⟩
      exact ⟨(two_pow_logCost hcost iterations.lt).1, hfits.toNat_lanes, hfits.toNat_table⟩
  · obtain ⟨key, hkey, -⟩ := kdf.exists_deriveKey password salt
    exact ⟨key, hkey⟩

end Strongbox.Derivation
