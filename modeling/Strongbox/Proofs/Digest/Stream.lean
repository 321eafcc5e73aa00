import Mathlib.Data.List.Induction
import Strongbox.Digest
import Strongbox.Proofs.Bytes

/-!
# A message in pieces has the digest of the whole message

A stream that was fed a message holds the chaining value after the whole blocks of the message,
and the bytes after them. The padding completes the last block, or the last two, so that the
digest a stream gives is the digest of the message, however the message was cut.

## Main definitions

* `Scheme.Lawful`: what an iterated digest has to meet
* `Stream.Holds`: what a stream holds of the message fed to it

## Main results

* `Stream.holds_update`: what a stream holds, after every message
* `Scheme.dvd_length_padded`: a padded message is whole blocks
* `Stream.finish_update`: the digest of a message in pieces
* `Digest.lawful`, `Digest.length_hash`: the digests meet what they have to, and their lengths
-/

namespace Strongbox.Digest

namespace Scheme

/-- What an iterated digest has to meet. -/
structure Lawful (scheme : Scheme) : Prop where
  /-- A block is not empty. -/
  blockLength_pos : 0 < scheme.blockLength
  /-- The length takes the bytes set aside for it. -/
  length_encodeLength : ∀ length, (scheme.encodeLength length).length = scheme.lengthWidth

variable {scheme : Scheme}

/-! ## Padding -/

theorem zeros_lt (hpos : 0 < scheme.blockLength) (length : Nat) :
    scheme.zeros length < scheme.blockLength :=
  Nat.mod_lt _ hpos

/-- The zeros fill up a block. -/
theorem dvd_add_zeros (hpos : 0 < scheme.blockLength) (length : Nat) :
    scheme.blockLength ∣ length + 1 + scheme.lengthWidth + scheme.zeros length := by
  refine Nat.dvd_of_mod_eq_zero ?_
  rw [zeros]
  generalize length + 1 + scheme.lengthWidth = total
  have hle := Nat.le_of_lt (Nat.mod_lt total hpos)
  rw [Nat.add_mod, Nat.mod_mod, ← Nat.add_mod, ← Nat.mod_add_mod, Nat.add_sub_cancel' hle,
    Nat.mod_self]

theorem length_padding (h : scheme.Lawful) (length : Nat) :
    (scheme.padding length).length = 1 + scheme.zeros length + scheme.lengthWidth := by
  rw [padding, List.cons_append, List.length_cons, List.length_append, List.length_replicate,
    h.length_encodeLength]
  omega

/-- **A padded message is whole blocks.** -/
theorem dvd_length_padded (h : scheme.Lawful) (message : Bytes) :
    scheme.blockLength ∣ (message ++ scheme.padding message.length).length := by
  have hdvd := dvd_add_zeros h.blockLength_pos message.length
  rw [List.length_append, length_padding h]
  exact (by omega : message.length + 1 + scheme.lengthWidth + scheme.zeros message.length =
    message.length + (1 + scheme.zeros message.length + scheme.lengthWidth)) ▸ hdvd

/-! ## Streams -/

namespace Stream

/-- What a stream holds of a message that is whole blocks and a rest. -/
structure Holds (stream : scheme.Stream) (whole rest : Bytes) : Prop where
  /-- The chaining value after the whole blocks. -/
  chain : stream.chain =
    (Bytes.blocks scheme.blockLength whole).foldl scheme.compress scheme.initial
  /-- The rest, the newest first. -/
  pending : stream.pending = rest.reverse
  /-- The number of all the bytes. -/
  count : stream.count = whole.length + rest.length
  /-- The whole blocks are whole. -/
  dvd : scheme.blockLength ∣ whole.length
  /-- The rest is less than a block. -/
  lt : rest.length < scheme.blockLength

variable {stream : scheme.Stream} {whole rest : Bytes}

/-- A stream holds on to a byte more, and completes the block with it if there is one to
complete. -/
theorem Holds.push (h : stream.Holds whole rest) (b : UInt8) :
    ∃ whole' rest', whole' ++ rest' = whole ++ rest ++ [b] ∧
      (stream.push b).Holds whole' rest' := by
  have hpos : scheme.blockLength ≠ 0 := Nat.ne_zero_of_lt h.lt
  have hmod : (stream.count + 1) % scheme.blockLength = (rest.length + 1) % scheme.blockLength := by
    obtain ⟨k, hk⟩ := h.dvd
    rw [h.count, hk, Nat.add_assoc, Nat.mul_add_mod]
  have hle : rest.length + 1 ≤ scheme.blockLength := h.lt
  rcases Nat.lt_or_eq_of_le hle with hlt | heq
  · have hne : (stream.count + 1) % scheme.blockLength ≠ 0 := by
      rw [hmod, Nat.mod_eq_of_lt hlt]
      exact Nat.succ_ne_zero _
    refine ⟨whole, rest ++ [b], (List.append_assoc ..).symm, ?_⟩
    rw [Stream.push, if_neg hne]
    exact ⟨h.chain, by rw [h.pending, List.reverse_append]; rfl,
      by rw [h.count, List.length_append]; rfl, h.dvd, by rwa [List.length_append]⟩
  · have hzero : (stream.count + 1) % scheme.blockLength = 0 := by
      rw [hmod, heq, Nat.mod_self]
    have hblock : (rest ++ [b]).length = scheme.blockLength := by rwa [List.length_append]
    refine ⟨whole ++ (rest ++ [b]), [], by rw [List.append_nil, List.append_assoc], ?_⟩
    rw [Stream.push, if_pos hzero]
    refine ⟨?_, rfl, ?_, ?_, Nat.pos_of_ne_zero hpos⟩
    · rw [Bytes.blocks_append hpos h.dvd, Bytes.blocks_of_length hpos hblock, List.foldl_append,
        ← h.chain, h.pending, List.reverse_cons, List.reverse_reverse]
      rfl
    · rw [h.count, List.length_append, List.length_append, List.length_singleton]
      rfl
    · rw [List.length_append, hblock]
      exact Nat.dvd_add h.dvd (Nat.dvd_refl _)

/-- **What a stream holds, after every message**: the chaining value after the whole blocks of the
message, and the bytes after them. -/
theorem holds_update (hpos : 0 < scheme.blockLength) (message : Bytes) :
    ∃ whole rest, whole ++ rest = message ∧
      ((start : scheme.Stream).update message).Holds whole rest := by
  induction message using List.reverseRecOn with
  | nil => exact ⟨[], [], rfl, by rw [Bytes.blocks_nil]; rfl, rfl, rfl, Nat.dvd_zero _, hpos⟩
  | append_singleton message b ih =>
    obtain ⟨whole, rest, rfl, h⟩ := ih
    rw [update_append]
    exact h.push b

theorem count_update (hpos : 0 < scheme.blockLength) (message : Bytes) :
    ((start : scheme.Stream).update message).count = message.length := by
  obtain ⟨whole, rest, rfl, h⟩ := holds_update hpos message
  rw [h.count, List.length_append]

/-- After whole blocks nothing is pending. -/
theorem chain_update (hpos : 0 < scheme.blockLength) {message : Bytes}
    (hdvd : scheme.blockLength ∣ message.length) :
    ((start : scheme.Stream).update message).chain =
      (Bytes.blocks scheme.blockLength message).foldl scheme.compress scheme.initial := by
  obtain ⟨whole, rest, rfl, h⟩ := holds_update hpos message
  rw [List.length_append] at hdvd
  have hrest : rest = [] := by
    rw [← List.length_eq_zero_iff]
    exact Nat.eq_zero_of_dvd_of_lt ((Nat.dvd_add_right h.dvd).mp hdvd) h.lt
  rw [h.chain, hrest, List.append_nil]

/-- **A message in pieces has the digest of the whole message.** -/
theorem finish_update (h : scheme.Lawful) (message : Bytes) :
    ((start : scheme.Stream).update message).finish = scheme.hash message := by
  rw [finish, count_update h.blockLength_pos, ← update_append,
    chain_update h.blockLength_pos (dvd_length_padded h message), hash]

end Stream

end Scheme

/-! ## The five digests -/

theorem lawful (digest : Digest) : digest.scheme.Lawful := by
  cases digest
  case md5 => exact ⟨by decide, Bytes.length_littleEndian 8⟩
  case sha1 => exact ⟨by decide, Bytes.length_bigEndian 8⟩
  case sha256 => exact ⟨by decide, Bytes.length_bigEndian 8⟩
  case sha384 => exact ⟨by decide, Bytes.length_bigEndian 16⟩
  case sha512 => exact ⟨by decide, Bytes.length_bigEndian 16⟩

/-- Every chaining value gives a digest of the right length. -/
theorem length_output (digest : Digest) (chain : digest.scheme.Chain) :
    (digest.scheme.output chain).length = digest.hashLength := by
  cases digest
  case md5 => simp [scheme, Md5.scheme, Md5.output, hashLength]
  case sha1 => simp [scheme, Sha1.scheme, Sha1.output, hashLength]
  case sha256 => simp [scheme, Sha2.scheme256, Sha2.output, Sha2.variant32, hashLength]
  case sha384 => simp [scheme, Sha2.scheme384, Sha2.output, Sha2.variant64, hashLength]
  case sha512 => simp [scheme, Sha2.scheme512, Sha2.output, Sha2.variant64, hashLength]

@[simp] theorem length_hash (digest : Digest) (message : Bytes) :
    (digest.hash message).length = digest.hashLength :=
  digest.length_output _

@[simp] theorem length_finish (digest : Digest) (stream : digest.scheme.Stream) :
    stream.finish.length = digest.hashLength :=
  digest.length_output _

end Strongbox.Digest
