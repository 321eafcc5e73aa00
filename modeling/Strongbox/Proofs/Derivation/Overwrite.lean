import Strongbox.Proofs.Derivation.Length

/-!
# Keys written into a buffer

A key may be written into a buffer, from an offset on. The part of the buffer it goes into is
filled as a whole, and what stood there before leaves no trace in it: chained digests write their
blocks over it one after another, up to its end, and the other functions give the key as a whole.
So the buffer has the key at the offset, the same that is derived without a buffer, and all else is
as it was. Where there is too little room that is told, and nothing is written; nothing else can go
wrong, and no offset is too large for that.

## Main results

* `Kdf.overwrite_of_fill`: a slice is filled with the key material of its length
* `Kdf.overwriteAt_of_lt`, `Kdf.overwriteAt_of_le`: a buffer with too little and with enough room
* `Kdf.deriveKeyAt_leaves_all_else`: the key in the buffer is the key, and all else is as it was
-/

namespace Strongbox

/-- What a slice holds before it is filled does not matter. -/
theorem BytesToKey.fill_congr (digest : Digest) (password salt : Bytes) {slice other : Bytes}
    (h : slice.length = other.length) :
    fill digest password salt slice = fill digest password salt other := by
  have henough := digest.le_mul_hashLength slice.length
  rw [fill_eq_take henough, fill_eq_take (h ▸ henough), h]

namespace Kdf

variable {kdf : Kdf} {password salt : Bytes}

/-- **A slice is filled with the key material of its length**, whatever it holds. -/
theorem overwrite_of_fill {slice key : Bytes}
    (h : kdf.fill password salt slice.length = .ok key) :
    kdf.overwrite password salt slice = (key, .ok ()) := by
  unfold overwrite
  split
  · next digest _ hspec =>
    have hzeros : (List.replicate slice.length (0 : UInt8)).length = slice.length :=
      List.length_replicate
    simp only [fill, hspec, filled_eq_ok_iff] at h
    rw [← h]
    exact BytesToKey.fill_congr digest password salt hzeros.symm
  · rw [h]
  · rw [h]

/-- With too little room nothing is written. -/
theorem overwriteAt_of_lt (kdf : Kdf) (password salt : Bytes) {buffer : Bytes} {offset : Nat}
    (h : buffer.length - offset < kdf.keyLength) :
    kdf.overwriteAt password salt buffer offset =
      (buffer, .error (.bufferTooShort kdf.keyLength (buffer.length - offset))) :=
  if_pos h

/-- With enough room the key is written, and all else is as it was. -/
theorem overwriteAt_of_le {buffer : Bytes} {offset : Nat} {key : DerivedKey}
    (h : kdf.keyLength ≤ buffer.length - offset) (hkey : kdf.deriveKey password salt = .ok key) :
    kdf.overwriteAt password salt buffer offset =
      (buffer.take offset ++ key.bytes ++ buffer.drop (offset + kdf.keyLength), .ok ()) := by
  have hlength := length_of_deriveKey hkey
  have hslice : (Bytes.slice buffer offset kdf.keyLength).length = kdf.keyLength := by
    rw [Bytes.slice, List.length_take, List.length_drop, Nat.min_eq_left h]
  have hfill := kdf.deriveKey_eq_ok_iff.mp hkey
  rw [← hslice] at hfill
  rw [overwriteAt]
  simp only [Bytes.room, if_neg (Nat.not_lt_of_le h), overwrite_of_fill hfill, Bytes.splice,
    hlength]

/-- **The key in the buffer is the key, and all else is as it was**, for every derivation that can
run, every buffer and every offset. If fewer bytes than a key has are left behind the offset, and
none are left behind one past the end, that is told and the buffer is as it was; if there is room,
the key ends within the buffer, and what stands in front of it and behind it is untouched. Nothing
else can happen. -/
theorem deriveKeyAt_leaves_all_else (kdf : Kdf) (password salt buffer : Bytes)
    (offset : Nat) :
    ∃ key, kdf.deriveKey password salt = .ok key ∧ key.bytes.length = kdf.keyLength ∧
      (buffer.length - offset < kdf.keyLength →
        let error := Error.bufferTooShort kdf.keyLength (buffer.length - offset)
        kdf.overwriteAt password salt buffer offset = (buffer, .error error) ∧
        kdf.deriveKeyAt password salt buffer offset = .error error) ∧
      (kdf.keyLength ≤ buffer.length - offset →
        let written := buffer.take offset ++ key.bytes ++ buffer.drop (offset + kdf.keyLength)
        offset + kdf.keyLength ≤ buffer.length ∧
        kdf.overwriteAt password salt buffer offset = (written, .ok ()) ∧
        kdf.deriveKeyAt password salt buffer offset = .ok written) := by
  obtain ⟨key, hkey, hlength⟩ := kdf.exists_deriveKey password salt
  refine ⟨key, hkey, hlength, fun hlt => ?_, fun hle => ?_⟩
  · have hwritten := kdf.overwriteAt_of_lt password salt hlt
    exact ⟨hwritten, by rw [deriveKeyAt, hwritten]; rfl⟩
  · have hpos := kdf.keyLength_pos
    have hwritten := overwriteAt_of_le hle hkey
    exact ⟨by omega, hwritten, by rw [deriveKeyAt, hwritten]; rfl⟩

end Kdf

end Strongbox
