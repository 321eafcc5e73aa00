import Strongbox.Proofs.Derivation.Length
import Strongbox.Proofs.Hmac

/-!
# Keys by iterated keyed digests are those of the standard

The standard numbers blocks from one. Block number `i` is the exclusive or of the first digests of
a chain: the first is the keyed digest of the salt and of `i` in four bytes, each other the keyed
digest of the one before. The key is the leading bytes of all blocks, one behind the other. The
number of a block is held in 32 bits, and no key is so long that it would run over.

## Main definitions

* `Pbkdf2.link`: a digest of the chain of a block
* `Pbkdf2.standardBlock`, `Pbkdf2.standardBlocks`: a block, and blocks one behind the other
* `Pbkdf2.standard`: the key of the standard

## Main results

* `Pbkdf2.block_eq_standardBlock`: a block is that of the standard
* `Pbkdf2.fill_eq_take`, `Pbkdf2.fill_eq_standard`: the key is the leading bytes of the blocks
* `Kdf.deriveKey_iteratedDigest`: every spec of iterated digests makes the key of the standard
-/

namespace Strongbox

namespace Pbkdf2

variable (digest : Digest) (password salt : Bytes)

/-- A digest of the chain of block `number`: the one that `j` others stand in front of. -/
def link (number : Nat) : (j : Nat) → Bytes
  | 0 => Hmac.standard digest password (salt ++ Bytes.bigEndian 4 number)
  | j + 1 => Hmac.standard digest password (link number j)

/-- The exclusive or of the first `iterations` digests of the chain of block `number`. -/
def standardBlock (number iterations : Nat) : Bytes :=
  (List.range iterations).foldl (fun sum j => Bytes.xor sum (link digest password salt number j))
    (List.replicate digest.hashLength 0)

/-- The blocks from number one on, one behind the other. -/
def standardBlocks (iterations count : Nat) : Bytes :=
  (List.range count).flatMap fun i => standardBlock digest password salt (i + 1) iterations

/-- The key of the standard: the leading bytes of as many blocks as it takes. -/
def standard (iterations length : Nat) : Bytes :=
  (standardBlocks digest password salt iterations
    ((length + digest.hashLength - 1) / digest.hashLength)).take length

variable {digest password salt}

@[simp] theorem length_link (number j : Nat) :
    (link digest password salt number j).length = digest.hashLength := by
  cases j <;> exact Hmac.length_standard ..

theorem standardBlock_succ (number iterations : Nat) :
    standardBlock digest password salt number (iterations + 1) =
      Bytes.xor (standardBlock digest password salt number iterations)
        (link digest password salt number iterations) := by
  rw [standardBlock, List.range_succ, List.foldl_append]
  rfl

/-- A single digest is its own exclusive or. -/
theorem standardBlock_one (number : Nat) :
    standardBlock digest password salt number 1 = link digest password salt number 0 := by
  rw [standardBlock_succ, standardBlock, List.range_zero, List.foldl_nil,
    Bytes.replicate_zero_xor (length_link number 0)]

/-! ## One block -/

/-- The chain, from any of its digests on, with what was gathered of it until there. -/
theorem chain_prepare (number j rounds : Nat) :
    chain (Hmac.Key.prepare digest password) rounds (link digest password salt number j)
        (standardBlock digest password salt number (j + 1)) =
      standardBlock digest password salt number (j + 1 + rounds) := by
  induction rounds generalizing j with
  | zero => rfl
  | succ rounds ih =>
    rw [chain, Hmac.Key.mac_prepare]
    rw [← link, ← standardBlock_succ, ih (j + 1)]
    congr 1
    omega

/-- **A block is that of the standard.** -/
theorem block_eq_standardBlock {iterations : Nat} (h : 0 < iterations) (number : Nat) :
    block (Hmac.Key.prepare digest password) salt iterations (UInt32.ofNat number) =
      standardBlock digest password salt number iterations := by
  have hcut : Bytes.bigEndian 4 (UInt32.ofNat number).toNat = Bytes.bigEndian 4 number := by
    rw [UInt32.toNat_ofNat']
    exact Bytes.bigEndian_mod 4 number
  have hchain : chain (Hmac.Key.prepare digest password) (iterations - 1)
      (link digest password salt number 0) (standardBlock digest password salt number 1) =
        standardBlock digest password salt number (1 + (iterations - 1)) :=
    chain_prepare number 0 (iterations - 1)
  rw [standardBlock_one, Nat.add_sub_cancel' h] at hchain
  rw [block, hcut, Hmac.Key.mac_prepare, ← link, hchain]

/-! ## All blocks -/

/-- From block `number + 1` on, the leading bytes of the blocks. -/
theorem fillFrom_eq_take {iterations : Nat} (h : 0 < iterations) {left count : Nat}
    (hcount : left ≤ count * digest.hashLength) (number : Nat) :
    fillFrom (Hmac.Key.prepare digest password) salt iterations (UInt32.ofNat (number + 1)) left =
      ((List.range count).flatMap fun i =>
        standardBlock digest password salt (number + i + 1) iterations).take left := by
  induction count generalizing left number with
  | zero =>
    obtain rfl : left = 0 := by omega
    rw [fillFrom, if_pos rfl, List.take_zero]
  | succ count ih =>
    have hlength : (standardBlock digest password salt (number + 1) iterations).length =
        digest.hashLength := by
      rw [← block_eq_standardBlock h]
      exact length_block ..
    rw [fillFrom]
    split
    · next hleft => rw [hleft, List.take_zero]
    · have hnext : UInt32.ofNat (number + 1) + 1 = UInt32.ofNat (number + 1 + 1) := by
        rw [UInt32.ofNat_add (number + 1) 1]
        rfl
      have hrest : left - digest.hashLength ≤ count * digest.hashLength := by
        rw [Nat.succ_mul] at hcount
        omega
      rw [block_eq_standardBlock h, hnext, ih hrest (number + 1), List.range_succ_eq_map,
        List.flatMap_cons, List.flatMap_map, List.take_append, hlength]
      congr 3
      funext i
      congr 1
      omega

/-- **The key is the leading bytes of the blocks**, however many blocks are taken into account, as
long as they are enough. -/
theorem fill_eq_take {iterations : Nat} (h : 0 < iterations) {length count : Nat}
    (hcount : length ≤ count * digest.hashLength) :
    fill digest iterations password salt length =
      (standardBlocks digest password salt iterations count).take length := by
  refine (fillFrom_eq_take h hcount 0).trans ?_
  simp only [Nat.zero_add]
  rfl

/-- **The key is that of the standard.** -/
theorem fill_eq_standard {iterations : Nat} (h : 0 < iterations) (length : Nat) :
    fill digest iterations password salt length =
      standard digest password salt iterations length := by
  refine fill_eq_take h ?_
  have hpos := digest.hashLength_pos
  have hceil := Nat.lt_div_mul_add (a := length + digest.hashLength - 1) hpos
  omega

end Pbkdf2

open Strongbox.Derivation (Positive Spec)

/-- **Every spec of iterated digests makes the key of the standard**, whatever the password and the
salt are: the key has the length asked for, and is the leading bytes of the blocks, however many of
them are taken into account beyond those it takes. All of these have numbers that fit into 32 bits,
so that four bytes write them as they are. -/
theorem Kdf.deriveKey_iteratedDigest (digest : Digest) (keyLength iterations : Positive)
    (password salt : Bytes) :
    ∃ kdf key, (Spec.iteratedDigest digest keyLength iterations).kdf = .ok kdf ∧
      kdf.deriveKey password salt = .ok key ∧ key.bytes.length = keyLength.val ∧
      (∀ count, keyLength.val ≤ count * digest.hashLength →
        key.bytes = (Pbkdf2.standardBlocks digest password salt iterations.val count).take
          keyLength.val) ∧
      ∀ i, i * digest.hashLength < keyLength.val →
        i + 1 < 2 ^ 32 ∧ Bytes.toNat (Bytes.bigEndian 4 (i + 1)).reverse = i + 1 := by
  refine ⟨⟨.iteratedDigest digest keyLength iterations, rfl⟩,
    ⟨Pbkdf2.fill digest iterations.val password salt keyLength.val⟩, rfl, rfl,
    Pbkdf2.length_fill .., fun count hcount => Pbkdf2.fill_eq_take iterations.pos hcount,
    fun i hi => ?_⟩
  -- the block in front of number `i + 1` ends before the key does, and a key is shorter than 2 ^ 32
  have hlt : keyLength.val < 2 ^ 32 := keyLength.lt
  have hblock : i ≤ i * digest.hashLength := Nat.le_mul_of_pos_right i digest.hashLength_pos
  have hnumber : i + 1 < 2 ^ 32 := by omega
  exact ⟨hnumber, (Bytes.toNat_reverse_bigEndian 4 (i + 1)).trans (Nat.mod_eq_of_lt hnumber)⟩

end Strongbox
