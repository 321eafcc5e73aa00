import Mathlib.Data.List.GetD
import Strongbox.Hmac
import Strongbox.Proofs.Digest.Standard

/-!
# The keyed digest of the standard

The standard has a key one block long: zeros stand behind a short key, and a key that is longer
than a block is first replaced by its digest. The keyed digest is two digests, one inside the
other, each of a message that starts with the key under a mask of its own. A prepared key gives
that digest too, although the two masked keys are hashed only once, when it is prepared.

So different keys can be one key: zeros at the end of a short one do not show, and a long one is its
own digest.

## Main definitions

* `Hmac.standard digest key message`: the keyed digest of the standard, byte by byte
* `Hmac.Interchangeable digest key key'`: the ways in which two keys are one

## Main results

* `Hmac.mac_eq_standard`: the keyed digest is that of the standard
* `Hmac.Key.mac_prepare`: a prepared key gives the keyed digest
* `Interchangeable.prepare_eq`: interchangeable keys are prepared alike
-/

namespace Strongbox.Hmac

variable (digest : Digest) (key message : Bytes)

/-- A byte of the key of the standard: of the key, or of its digest if it is longer than a block;
behind that all bytes are zero. -/
def keyByte (i : Nat) : UInt8 :=
  if digest.layout.blockLength < key.length then (digest.hash key).getD i 0 else key.getD i 0

/-- The key of the standard under a mask. -/
def maskedKey (mask : UInt8) : Bytes :=
  (List.range digest.layout.blockLength).map fun i => keyByte digest key i ^^^ mask

/-- The keyed digest of the standard. -/
def standard : Bytes :=
  digest.hash (maskedKey digest key 0x5C ++ digest.hash (maskedKey digest key 0x36 ++ message))

/-! ## The key as one block -/

/-- A digest fits into a block. -/
theorem hashLength_le_blockLength : digest.hashLength ≤ digest.blockLength := by
  cases digest <;> decide

/-- Zeros fill up what is missing, byte by byte. -/
theorem append_replicate_zero {n : Nat} {data : Bytes} (h : data.length ≤ n) :
    data ++ List.replicate (n - data.length) 0 = (List.range n).map fun i => data.getD i 0 := by
  refine List.ext_getElem (by simp; omega) fun i h₁ h₂ => ?_
  rw [List.getElem_map, List.getElem_range]
  rcases Nat.lt_or_ge i data.length with hlt | hge
  · rw [List.getElem_append_left hlt, List.getD_eq_getElem _ _ hlt]
  · rw [List.getElem_append_right hge, List.getElem_replicate, List.getD_eq_default _ _ hge]

theorem masked_keyBlock (mask : UInt8) :
    masked mask (keyBlock digest key) = maskedKey digest key mask := by
  have hlayout : digest.layout.blockLength = digest.blockLength := digest.blockLength_layout
  rcases Nat.lt_or_ge digest.blockLength key.length with hlong | hshort
  · have hfits : (digest.hash key).length ≤ digest.blockLength := by
      rw [Digest.length_hash]
      exact hashLength_le_blockLength digest
    simp only [masked, keyBlock, maskedKey, keyByte, hlayout, if_pos hlong]
    rw [append_replicate_zero hfits, List.map_map]
    rfl
  · simp only [masked, keyBlock, maskedKey, keyByte, hlayout, if_neg (Nat.not_lt_of_le hshort)]
    rw [append_replicate_zero hshort, List.map_map]
    rfl

/-- **The keyed digest is that of the standard**, whatever the length of the key. -/
theorem mac_eq_standard : mac digest key message = standard digest key message := by
  simp only [mac, standard, masked_keyBlock]
  rfl

@[simp] theorem length_standard : (standard digest key message).length = digest.hashLength :=
  Digest.length_hash ..

/-! ## Prepared keys -/

/-- **A prepared key gives the keyed digest**: what was hashed of it need not be hashed again. -/
theorem Key.mac_prepare : (Key.prepare digest key).mac message = standard digest key message := by
  rw [← mac_eq_standard, Key.mac, Key.prepare, Hmac.mac]
  simp only [← Digest.Scheme.Stream.update_append,
    Digest.Scheme.Stream.finish_update digest.lawful]
  rfl

/-! ## Keys that are one -/

/-- The ways in which two keys are one key. -/
inductive Interchangeable (digest : Digest) : (key key' : Bytes) → Prop where
  /-- Zeros stand behind a key, within a block. -/
  | zeros {key : Bytes} {count : Nat} (h : key.length + count ≤ digest.blockLength) :
    Interchangeable digest key (key ++ List.replicate count 0)
  /-- The digest of a key stands in for it, if it is longer than a block. -/
  | digest {key : Bytes} (h : digest.blockLength < key.length) :
    Interchangeable digest key (digest.hash key)

variable {digest key} {key' : Bytes}

/-- A key that fits into a block is filled up with zeros. -/
theorem keyBlock_of_le (h : key.length ≤ digest.blockLength) :
    keyBlock digest key = key ++ List.replicate (digest.blockLength - key.length) 0 := by
  rw [keyBlock, if_neg (Nat.not_lt_of_le h)]

/-- The digest of a longer key is filled up instead. -/
theorem keyBlock_of_lt (h : digest.blockLength < key.length) :
    keyBlock digest key =
      digest.hash key ++ List.replicate (digest.blockLength - (digest.hash key).length) 0 := by
  rw [keyBlock, if_pos h]

/-- **Interchangeable keys have one block.** -/
theorem Interchangeable.keyBlock_eq (h : Interchangeable digest key key') :
    keyBlock digest key = keyBlock digest key' := by
  cases h with
  | @zeros count h =>
    have hlength : (key ++ List.replicate count (0 : UInt8)).length = key.length + count := by
      rw [List.length_append, List.length_replicate]
    rw [keyBlock_of_le (Nat.le_of_add_right_le h), keyBlock_of_le (hlength ▸ h), List.append_assoc,
      List.replicate_append_replicate, hlength]
    congr 2
    omega
  | digest h =>
    have hfits : (digest.hash key).length ≤ digest.blockLength := by
      rw [Digest.length_hash]
      exact hashLength_le_blockLength digest
    rw [keyBlock_of_lt h, keyBlock_of_le hfits]

/-- Interchangeable keys are prepared alike, so that nothing made with them tells one from the
other. -/
theorem Interchangeable.prepare_eq (h : Interchangeable digest key key') :
    Key.prepare digest key = Key.prepare digest key' := by
  simp only [Key.prepare, h.keyBlock_eq]

end Strongbox.Hmac
