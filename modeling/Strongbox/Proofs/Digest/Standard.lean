import Mathlib.Data.Nat.ModEq
import Strongbox.Proofs.Digest.Stream

/-!
# The padding of the standards

The standards of the five digests pad a message with a one bit, as few zeros as fill up a block,
and the length of the message in bits, in eight or in sixteen bytes. The digest is what the
compression function makes of the blocks. As long as the length of the message in bits fits into
64 bits, the digest of a message is that.

## Main definitions

* `Layout`, `Digest.layout`: how a standard lays out its blocks
* `Digest.Padded digest message blocks`: the blocks of a padded message
* `Digest.IsStandard digest message hash`: the digest of the standard

## Main results

* `Digest.Padded.unique`: a message is padded in one way only
* `Digest.isStandard_hash`, `Digest.isStandard_iff`: the digest of a message is that of the
  standard, and the only one
-/

namespace Strongbox.Digest

/-- How a standard lays out the blocks of a padded message. -/
structure Layout where
  /-- The bytes of a block. -/
  blockLength : Nat
  /-- The bytes at the end that write the length of the message. -/
  fieldLength : Nat
  /-- The number those bytes write. -/
  fieldValue : Bytes → Nat

/-- The layout of each digest: the length is written with the least significant byte first by the
oldest of them, with the most significant byte first by the others. -/
def layout : Digest → Layout
  | .md5 => ⟨64, 8, Bytes.toNat⟩
  | .sha1 | .sha256 => ⟨64, 8, fun field => Bytes.toNat field.reverse⟩
  | .sha384 | .sha512 => ⟨128, 16, fun field => Bytes.toNat field.reverse⟩

/-- The blocks of a padded message. -/
structure Padded (digest : Digest) (message : Bytes) (blocks : List Bytes) : Prop where
  /-- They are whole blocks. -/
  whole : ∀ block ∈ blocks, block.length = digest.layout.blockLength
  /-- Behind the message stand a one bit, fewer zero bytes than a block has, and the length of the
  message in bits. -/
  flatten : ∃ zeros < digest.layout.blockLength, ∃ field : Bytes,
    field.length = digest.layout.fieldLength ∧
    digest.layout.fieldValue field = 8 * message.length ∧
    blocks.flatten = message ++ 0x80 :: (List.replicate zeros 0 ++ field)

/-- The digest of the standard: what the compression function makes of the blocks of the padded
message. -/
def IsStandard (digest : Digest) (message hash : Bytes) : Prop :=
  ∃ blocks, Padded digest message blocks ∧
    hash = digest.scheme.output (blocks.foldl digest.scheme.compress digest.scheme.initial)

theorem blockLength_layout (digest : Digest) :
    digest.layout.blockLength = digest.scheme.blockLength := by
  cases digest <;> rfl

theorem fieldLength_layout (digest : Digest) :
    digest.layout.fieldLength = digest.scheme.lengthWidth := by
  cases digest <;> rfl

/-- A length that fits into 64 bits is read back. -/
theorem fieldValue_encodeLength (digest : Digest) {length : Nat} (h : length < 2 ^ 64) :
    digest.layout.fieldValue (digest.scheme.encodeLength length) = length := by
  cases digest
  case md5 => exact (Bytes.toNat_littleEndian 8 length).trans (Nat.mod_eq_of_lt (by omega))
  case sha1 => exact (Bytes.toNat_reverse_bigEndian 8 length).trans (Nat.mod_eq_of_lt (by omega))
  case sha256 => exact (Bytes.toNat_reverse_bigEndian 8 length).trans (Nat.mod_eq_of_lt (by omega))
  case sha384 => exact (Bytes.toNat_reverse_bigEndian 16 length).trans (Nat.mod_eq_of_lt (by omega))
  case sha512 => exact (Bytes.toNat_reverse_bigEndian 16 length).trans (Nat.mod_eq_of_lt (by omega))

theorem padded_blocks (digest : Digest) {message : Bytes} (h : message.length < 2 ^ 61) :
    Padded digest message
      (Bytes.blocks digest.scheme.blockLength
        (message ++ digest.scheme.padding message.length)) := by
  have hpos := digest.lawful.blockLength_pos
  constructor
  · intro block hblock
    rw [blockLength_layout]
    exact Bytes.length_of_mem_blocks (Scheme.dvd_length_padded digest.lawful message) hblock
  · refine ⟨digest.scheme.zeros message.length, ?_,
      digest.scheme.encodeLength (8 * message.length), ?_, ?_, ?_⟩
    · rw [blockLength_layout]
      exact Scheme.zeros_lt hpos _
    · rw [digest.lawful.length_encodeLength, fieldLength_layout]
    · exact fieldValue_encodeLength digest (by omega)
    · rw [Bytes.flatten_blocks (Nat.ne_zero_of_lt hpos), Scheme.padding, List.cons_append]

theorem fieldValue_injective (digest : Digest) {a b : Bytes} (hlen : a.length = b.length)
    (h : digest.layout.fieldValue a = digest.layout.fieldValue b) : a = b := by
  have hreverse : a.reverse.length = b.reverse.length := by
    rw [List.length_reverse, List.length_reverse, hlen]
  cases digest
  case md5 => exact Bytes.eq_of_toNat_eq hlen h
  all_goals exact List.reverse_injective (Bytes.eq_of_toNat_eq hreverse h)

theorem length_padded (message field : Bytes) (zeros : Nat) :
    (message ++ 0x80 :: (List.replicate zeros 0 ++ field)).length =
      message.length + 1 + field.length + zeros := by
  rw [List.length_append, List.length_cons, List.length_append, List.length_replicate]
  omega

/-- There are as many zeros as fill up a block, and no other number of them below a block. -/
theorem eq_of_dvd_add {n a z z' : Nat} (hz : z < n) (hz' : z' < n) (h : n ∣ a + z)
    (h' : n ∣ a + z') : z = z' := by
  have hmod : a + z ≡ a + z' [MOD n] :=
    (Nat.modEq_zero_iff_dvd.mpr h).trans (Nat.modEq_zero_iff_dvd.mpr h').symm
  exact (Nat.ModEq.add_left_cancel' a hmod).eq_of_lt_of_lt hz hz'

/-- A message is padded in one way only. -/
theorem Padded.unique {digest : Digest} {message : Bytes} {blocks blocks' : List Bytes}
    (h : Padded digest message blocks) (h' : Padded digest message blocks') :
    blocks = blocks' := by
  obtain ⟨zeros, hlt, field, hlen, hvalue, hflat⟩ := h.flatten
  obtain ⟨zeros', hlt', field', hlen', hvalue', hflat'⟩ := h'.flatten
  have hfield : field = field' :=
    fieldValue_injective digest (hlen.trans hlen'.symm) (hvalue.trans hvalue'.symm)
  have hdvd := Bytes.dvd_length_flatten h.whole
  have hdvd' := Bytes.dvd_length_flatten h'.whole
  rw [hflat, length_padded, hlen] at hdvd
  rw [hflat', length_padded, hlen'] at hdvd'
  have hzeros : zeros = zeros' := eq_of_dvd_add hlt hlt' hdvd hdvd'
  have hflatten : blocks.flatten = blocks'.flatten := by
    rw [hflat, hflat', hfield, hzeros]
  have hpos := Nat.ne_zero_of_lt hlt
  rw [← Bytes.blocks_flatten hpos h.whole, hflatten, Bytes.blocks_flatten hpos h'.whole]

/-- **The digest of a message is that of the standard**, as long as its length in bits fits into
64 bits. -/
theorem isStandard_hash (digest : Digest) {message : Bytes} (h : message.length < 2 ^ 61) :
    IsStandard digest message (digest.hash message) :=
  ⟨_, padded_blocks digest h, rfl⟩

/-- **The standard has one digest for a message.** -/
theorem isStandard_iff (digest : Digest) {message hash : Bytes} (h : message.length < 2 ^ 61) :
    IsStandard digest message hash ↔ hash = digest.hash message := by
  constructor
  · rintro ⟨blocks, hpadded, rfl⟩
    rw [hpadded.unique (padded_blocks digest h)]
    rfl
  · rintro rfl
    exact isStandard_hash digest h

-- The letters `abc` have the digests that the standards print for them.
example : Digest.sha1.hash [0x61, 0x62, 0x63] = [0xa9, 0x99, 0x3e, 0x36, 0x47, 0x06, 0x81, 0x6a,
    0xba, 0x3e, 0x25, 0x71, 0x78, 0x50, 0xc2, 0x6c, 0x9c, 0xd0, 0xd8, 0x9d] := by
  decide +kernel

example : Digest.sha256.hash [0x61, 0x62, 0x63] = [0xba, 0x78, 0x16, 0xbf, 0x8f, 0x01, 0xcf,
    0xea, 0x41, 0x41, 0x40, 0xde, 0x5d, 0xae, 0x22, 0x23, 0xb0, 0x03, 0x61, 0xa3, 0x96, 0x17,
    0x7a, 0x9c, 0xb4, 0x10, 0xff, 0x61, 0xf2, 0x00, 0x15, 0xad] := by
  decide +kernel

example : Digest.sha384.hash [0x61, 0x62, 0x63] = [0xcb, 0x00, 0x75, 0x3f, 0x45, 0xa3, 0x5e,
    0x8b, 0xb5, 0xa0, 0x3d, 0x69, 0x9a, 0xc6, 0x50, 0x07, 0x27, 0x2c, 0x32, 0xab, 0x0e, 0xde,
    0xd1, 0x63, 0x1a, 0x8b, 0x60, 0x5a, 0x43, 0xff, 0x5b, 0xed, 0x80, 0x86, 0x07, 0x2b, 0xa1,
    0xe7, 0xcc, 0x23, 0x58, 0xba, 0xec, 0xa1, 0x34, 0xc8, 0x25, 0xa7] := by
  decide +kernel

example : Digest.sha512.hash [0x61, 0x62, 0x63] = [0xdd, 0xaf, 0x35, 0xa1, 0x93, 0x61, 0x7a,
    0xba, 0xcc, 0x41, 0x73, 0x49, 0xae, 0x20, 0x41, 0x31, 0x12, 0xe6, 0xfa, 0x4e, 0x89, 0xa9,
    0x7e, 0xa2, 0x0a, 0x9e, 0xee, 0xe6, 0x4b, 0x55, 0xd3, 0x9a, 0x21, 0x92, 0x99, 0x2a, 0x27,
    0x4f, 0xc1, 0xa8, 0x36, 0xba, 0x3c, 0x23, 0xa3, 0xfe, 0xeb, 0xbd, 0x45, 0x4d, 0x44, 0x23,
    0x64, 0x3c, 0xe8, 0x0e, 0x2a, 0x9a, 0xc9, 0x4f, 0xa5, 0x4c, 0xa4, 0x9f] := by
  decide +kernel

end Strongbox.Digest
