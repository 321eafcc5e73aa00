import Strongbox.Derivation.Kdf
import Strongbox.Proofs.Digest.Engine

/-!
# Keys by chained digests are the leading bytes of the chain

The first block of the chain is the digest of the password and the salt, each other the digest of
the block before it, the password and the salt. One engine and one buffer make all of them: where
a block begins the engine is fresh, the buffer holds the block before, and what is written of the
slice are the blocks up to there. So the slice ends up with the leading bytes of the chain,
whatever it held before and wherever it cuts the last block.

## Main definitions

* `BytesToKey.link`: a block of the chain
* `BytesToKey.links`: the first blocks of the chain, one behind the other

## Main results

* `BytesToKey.fillFrom_of_lt`: what one round of the loop does
* `BytesToKey.fillFrom_eq_take`: what the loop does from the beginning of any block on
* `BytesToKey.fill_eq_take`: a slice is filled with the leading bytes of the chain
* `Kdf.deriveKey_legacy`: every spec of chained digests makes the key of the chain
-/

namespace Strongbox

namespace BytesToKey

variable (digest : Digest) (password salt : Bytes)

/-- A block of the chain: the one that `i` others stand in front of. -/
def link : (i : Nat) → Bytes
  | 0 => digest.hash (password ++ salt)
  | i + 1 => digest.hash (link i ++ password ++ salt)

/-- The first blocks of the chain, one behind the other. -/
def links (count : Nat) : Bytes := (List.range count).flatMap (link digest password salt)

/-- What the buffer of the loop holds where block `number` begins: it has room for a digest, and
the block before is in it, if there is one. -/
structure Precedes (number : Nat) (block : Bytes) : Prop where
  /-- It is as long as a digest. -/
  length : block.length = digest.hashLength
  /-- The block before is in it. -/
  before : ∀ i, number = i + 1 → block = link digest password salt i

variable {digest password salt}

@[simp] theorem length_link (i : Nat) :
    (link digest password salt i).length = digest.hashLength := by
  cases i <;> exact Digest.length_hash ..

@[simp] theorem length_links (count : Nat) :
    (links digest password salt count).length = count * digest.hashLength := by
  simp [links, List.length_flatMap]

theorem precedes_zero {block : Bytes} (h : block.length = digest.hashLength) :
    Precedes digest password salt 0 block :=
  ⟨h, fun _ hi => nomatch hi⟩

theorem precedes_succ (number : Nat) :
    Precedes digest password salt (number + 1) (link digest password salt number) :=
  ⟨length_link number, fun _ hi => Nat.succ.inj hi ▸ rfl⟩

/-! ## One round -/

/-- A buffer as long as a digest holds the digest of what was fed, and the engine is fresh. -/
theorem finishInto_update {block : Bytes} (h : block.length = digest.hashLength)
    (message : Bytes) :
    (digest.engine.update message).finishInto block 0 =
      .ok (digest.hash message, digest.engine) := by
  have hroom : digest.hashLength ≤ block.length - 0 := Nat.le_of_eq h.symm
  rw [Digest.Engine.finishInto_of_le _ hroom, Digest.Engine.finish_update, Bytes.splice,
    Nat.zero_add, Digest.length_hash, List.drop_of_length_le (Nat.le_of_eq h)]
  simp [Digest.engine, Digest.Engine.update]

/-- A block is the digest of what is fed for it: the first of the password and the salt, any other
of the block before it too. -/
theorem finishInto_of_precedes {number : Nat} {block : Bytes}
    (h : Precedes digest password salt number block) :
    (((if 0 < number * digest.hashLength then digest.engine.update block
        else digest.engine).update password).update salt).finishInto block 0 =
      .ok (link digest password salt number, digest.engine) := by
  cases number with
  | zero =>
    rw [Nat.zero_mul, if_neg (Nat.lt_irrefl 0), Digest.Engine.update_update,
      finishInto_update h.length]
    rfl
  | succ number =>
    have hpos : 0 < (number + 1) * digest.hashLength :=
      Nat.mul_pos (Nat.succ_pos number) digest.hashLength_pos
    rw [if_pos hpos, Digest.Engine.update_update, Digest.Engine.update_update,
      finishInto_update h.length, h.before number rfl, ← List.append_assoc]
    rfl

/-- The loop ends where the slice does. -/
theorem fillFrom_of_le {engine : Digest.Engine} {block slice : Bytes} {written : Nat}
    (h : slice.length ≤ written) :
    fillFrom engine password salt block slice written = (slice, .ok ()) := by
  rw [fillFrom, if_neg (Nat.not_lt_of_le h)]

/-- At its end nothing is missing from the slice. -/
theorem fillFrom_of_eq {engine : Digest.Engine} {block slice : Bytes} {written : Nat}
    (h : slice.length = written) (missing : Bytes) :
    fillFrom engine password salt block slice written =
      (slice.take written ++ missing.take (slice.length - written), .ok ()) := by
  rw [fillFrom_of_le (Nat.le_of_eq h), ← h, List.take_length, Nat.sub_self, List.take_zero,
    List.append_nil]

/-- **One round of the loop**: a block is written, cut where the slice ends, and the engine and the
buffer are ready for the next one. -/
theorem fillFrom_of_lt {number : Nat} {block slice : Bytes}
    (h : Precedes digest password salt number block)
    (hlt : number * digest.hashLength < slice.length) :
    let count := min digest.hashLength (slice.length - number * digest.hashLength)
    fillFrom digest.engine password salt block slice (number * digest.hashLength) =
      fillFrom digest.engine password salt (link digest password salt number)
        (Bytes.splice slice (number * digest.hashLength)
          ((link digest password salt number).take count))
        (number * digest.hashLength + count) := by
  intro count
  have hround := finishInto_of_precedes h
  rw [fillFrom, if_pos hlt]
  simp only
  split
  · next heq =>
    cases heq.symm.trans hround
  · next made fresh heq =>
    obtain ⟨rfl, rfl⟩ := Prod.mk.inj (Except.ok.inj (heq.symm.trans hround))
    rw [length_link]

/-- A round before the slice ends writes a whole block, and the loop goes on behind it. -/
theorem fillFrom_of_whole {number : Nat} {block slice : Bytes}
    (h : Precedes digest password salt number block)
    (hwhole : (number + 1) * digest.hashLength ≤ slice.length) :
    fillFrom digest.engine password salt block slice (number * digest.hashLength) =
      fillFrom digest.engine password salt (link digest password salt number)
        (Bytes.splice slice (number * digest.hashLength) (link digest password salt number))
        ((number + 1) * digest.hashLength) := by
  have hpos := digest.hashLength_pos
  rw [Nat.succ_mul] at hwhole ⊢
  have hcount : min digest.hashLength (slice.length - number * digest.hashLength) =
      digest.hashLength := by omega
  rw [fillFrom_of_lt h (by omega), hcount,
    List.take_of_length_le (Nat.le_of_eq (length_link number))]

/-- The round that comes to the end of the slice cuts its block there. -/
theorem fillFrom_of_last {number : Nat} {block slice : Bytes}
    (h : Precedes digest password salt number block)
    (hlt : number * digest.hashLength < slice.length)
    (hlast : slice.length ≤ (number + 1) * digest.hashLength) :
    fillFrom digest.engine password salt block slice (number * digest.hashLength) =
      (slice.take (number * digest.hashLength) ++ (link digest password salt number).take
        (slice.length - number * digest.hashLength), .ok ()) := by
  rw [Nat.succ_mul] at hlast
  have hcount : min digest.hashLength (slice.length - number * digest.hashLength) =
      slice.length - number * digest.hashLength := by omega
  have hend : number * digest.hashLength + (slice.length - number * digest.hashLength) =
      slice.length := Nat.add_sub_cancel' (Nat.le_of_lt hlt)
  have hlength : ((link digest password salt number).take
      (slice.length - number * digest.hashLength)).length =
        slice.length - number * digest.hashLength := by
    rw [List.length_take, length_link, Nat.min_comm, hcount]
  rw [fillFrom_of_lt h hlt, hcount, hend, fillFrom_of_le, Bytes.splice, hlength, hend,
    List.drop_length, List.append_nil]
  exact Nat.le_of_eq (Bytes.length_splice (Nat.le_of_eq hlength) (Nat.le_of_lt hlt))

/-! ## All rounds -/

/-- **The loop, from the beginning of any block on**: it goes well, leaves what is written as it
is, and writes the blocks that are missing, the last one cut where the slice ends. -/
theorem fillFrom_eq_take {number count : Nat} {block slice : Bytes}
    (h : Precedes digest password salt number block)
    (hroom : number * digest.hashLength ≤ slice.length)
    (hcount : slice.length ≤ (number + count) * digest.hashLength) :
    fillFrom digest.engine password salt block slice (number * digest.hashLength) =
      (slice.take (number * digest.hashLength) ++
        ((List.range count).flatMap fun i => link digest password salt (number + i)).take
          (slice.length - number * digest.hashLength), .ok ()) := by
  -- by induction on the blocks that are missing: each round keeps `Precedes`, writes one of them
  -- and leaves the length of the slice alone
  induction count generalizing number block slice with
  | zero => exact fillFrom_of_eq (Nat.le_antisymm hcount hroom) _
  | succ count ih =>
    have hmissing : ((List.range (count + 1)).flatMap fun i =>
        link digest password salt (number + i)) = link digest password salt number ++
          (List.range count).flatMap fun i => link digest password salt (number + 1 + i) := by
      rw [List.range_succ_eq_map, List.flatMap_cons, List.flatMap_map, Nat.add_zero]
      simp only [Nat.succ_eq_add_one, Nat.add_assoc, Nat.add_comm 1]
    rw [hmissing]
    rcases Nat.lt_or_ge slice.length ((number + 1) * digest.hashLength) with hlast | hwhole
    · rcases Nat.eq_or_lt_of_le hroom with hend | hlt
      · exact fillFrom_of_eq hend.symm _
      · have hcut : slice.length - number * digest.hashLength ≤
            (link digest password salt number).length := by
          rw [Nat.succ_mul] at hlast
          rw [length_link]
          omega
        rw [fillFrom_of_last h hlt (Nat.le_of_lt hlast), List.take_append_of_le_length hcut]
    · have hblock : (link digest password salt number).length ≤
          slice.length - number * digest.hashLength := by
        rw [Nat.succ_mul] at hwhole
        rw [length_link]
        omega
      have hlength := Bytes.length_splice hblock hroom
      have htake := Bytes.take_splice hroom (link digest password salt number)
      rw [length_link, ← Nat.succ_mul] at htake
      rw [fillFrom_of_whole h hwhole, ih (precedes_succ number) (hlength ▸ hwhole)
        (by rwa [hlength, Nat.add_assoc, Nat.add_comm 1]), htake, hlength, List.append_assoc,
        List.take_append, List.take_of_length_le hblock, length_link, Nat.sub_sub, ← Nat.succ_mul]

/-- **A slice is filled with the leading bytes of the chain**, whatever it holds and however many
blocks are taken into account, as long as they are enough. -/
theorem fill_eq_take {slice : Bytes} {count : Nat}
    (hcount : slice.length ≤ count * digest.hashLength) :
    fill digest password salt slice =
      ((links digest password salt count).take slice.length, .ok ()) := by
  have hstart : Precedes digest password salt 0 (List.replicate digest.hashLength 0) :=
    precedes_zero List.length_replicate
  have hroom : 0 * digest.hashLength ≤ slice.length := by omega
  have hloop := fillFrom_eq_take hstart hroom (by rwa [Nat.zero_add])
  simp only [Nat.zero_mul, List.take_zero, List.nil_append, Nat.zero_add, Nat.sub_zero] at hloop
  exact hloop

end BytesToKey

open Strongbox.Derivation (Positive Spec)

/-- **Every spec of chained digests makes the key of the chain**, whatever the password and the
salt are: the loop comes to its end, whatever the slice holds that it fills, and the key has the
length asked for and is the leading bytes of the chain, however many blocks are taken into account
beyond those it takes. -/
theorem Kdf.deriveKey_legacy (digest : Digest) (keyLength : Positive) (password salt : Bytes) :
    ∃ kdf key, (Spec.legacy digest keyLength).kdf = .ok kdf ∧
      kdf.deriveKey password salt = .ok key ∧ key.bytes.length = keyLength.val ∧
      (∀ count, keyLength.val ≤ count * digest.hashLength →
        key.bytes = (BytesToKey.links digest password salt count).take keyLength.val) ∧
      ∀ slice, slice.length = keyLength.val →
        BytesToKey.fill digest password salt slice = (key.bytes, .ok ()) := by
  have hfill : ∀ slice : Bytes, slice.length = keyLength.val →
      ∀ count, keyLength.val ≤ count * digest.hashLength →
        BytesToKey.fill digest password salt slice =
          ((BytesToKey.links digest password salt count).take keyLength.val, .ok ()) := by
    intro slice hslice count hcount
    rw [← hslice] at hcount ⊢
    exact BytesToKey.fill_eq_take hcount
  have henough := digest.le_mul_hashLength keyLength.val
  have hzeros := hfill (List.replicate keyLength.val 0) List.length_replicate
  refine ⟨⟨.legacy digest keyLength, rfl⟩,
    ⟨(BytesToKey.links digest password salt keyLength.val).take keyLength.val⟩, rfl, ?_, ?_,
    fun count hcount => ?_, fun slice hslice => hfill slice hslice _ henough⟩
  · simp only [deriveKey, Kdf.keyLength, Spec.keyLength, fill, hzeros _ henough]
    rfl
  · rw [List.length_take, BytesToKey.length_links, Nat.min_eq_left henough]
  · exact congrArg Prod.fst ((hzeros _ henough).symm.trans (hzeros count hcount))

end Strongbox
