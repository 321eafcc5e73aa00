import Strongbox.Proofs.Derivation.BytesToKey
import Strongbox.Proofs.Outcome

/-!
# The length of derived keys

Each of the three functions gives as many bytes as it is asked for, whatever the password and the
salt are, so that a runnable derivation always makes a key of its length.

## Main results

* `BytesToKey.exists_fill`: a slice is filled as a whole
* `Pbkdf2.length_fill`, `Scrypt.length_fill`: as many bytes as are asked for
* `Kdf.deriveKey_eq_ok_iff`: a key is key material of the length of a key
* `Kdf.exists_deriveKey`: a runnable derivation makes a key of its length
-/

namespace Strongbox

/-- A slice is filled as a whole. -/
theorem BytesToKey.exists_fill (digest : Digest) (password salt slice : Bytes) :
    ∃ key, fill digest password salt slice = (key, .ok ()) ∧ key.length = slice.length := by
  have henough := digest.le_mul_hashLength slice.length
  refine ⟨_, fill_eq_take henough, ?_⟩
  rw [List.length_take, length_links, Nat.min_eq_left henough]

@[simp] theorem Hmac.Key.length_mac {digest : Digest} (key : Hmac.Key digest) (message : Bytes) :
    (key.mac message).length = digest.hashLength :=
  Digest.length_finish _ _

namespace Pbkdf2

variable {digest : Digest} (key : Hmac.Key digest)

/-- The sum along a chain stays as long as a digest. -/
theorem length_chain (rounds : Nat) (last : Bytes) {sum : Bytes}
    (h : sum.length = digest.hashLength) :
    (chain key rounds last sum).length = digest.hashLength := by
  induction rounds generalizing last sum with
  | zero => exact h
  | succ rounds ih =>
    refine ih _ ?_
    rw [Bytes.length_xor, h, Hmac.Key.length_mac, Nat.min_self]

@[simp] theorem length_block (salt : Bytes) (iterations : Nat) (number : UInt32) :
    (block key salt iterations number).length = digest.hashLength :=
  length_chain key _ _ (Hmac.Key.length_mac ..)

theorem length_fillFrom (salt : Bytes) (iterations : Nat) (number : UInt32) (left : Nat) :
    (fillFrom key salt iterations number left).length = left := by
  fun_induction fillFrom key salt iterations number left with
  | case1 => rfl
  | case2 number left hne ih =>
    rw [List.length_append, List.length_take, length_block, ih]
    omega

@[simp] theorem length_fill (digest : Digest) (iterations : Nat) (password salt : Bytes)
    (length : Nat) : (fill digest iterations password salt length).length = length :=
  length_fillFrom ..

end Pbkdf2

@[simp] theorem Scrypt.length_fill (cost blockSize parallelization : Nat) (password salt : Bytes)
    (length : Nat) :
    (Scrypt.fill cost blockSize parallelization password salt length).length = length :=
  Pbkdf2.length_fill ..

namespace Kdf

variable (kdf : Kdf)

theorem keyLength_pos : 0 < kdf.keyLength := kdf.spec.keyLength.pos

/-- As many bytes as are asked for, if they are any. -/
theorem exists_fill (password salt : Bytes) {length : Nat} (h : 0 < length) :
    ∃ bytes, kdf.fill password salt length = .ok bytes ∧ bytes.length = length := by
  unfold fill
  split
  · next digest _ _ =>
    obtain ⟨key, hkey, hlen⟩ :=
      BytesToKey.exists_fill digest password salt (List.replicate length 0)
    rw [hkey]
    exact ⟨key, rfl, hlen.trans List.length_replicate⟩
  · exact ⟨_, rfl, Pbkdf2.length_fill ..⟩
  · rw [if_neg (Nat.ne_zero_of_lt h)]
    exact ⟨_, rfl, Scrypt.length_fill ..⟩

/-- A key is key material of the length of a key. -/
theorem deriveKey_eq_ok_iff {password salt : Bytes} {key : DerivedKey} :
    kdf.deriveKey password salt = .ok key ↔
      kdf.fill password salt kdf.keyLength = .ok key.bytes := by
  rw [deriveKey, bind_eq_ok_iff]
  constructor
  · rintro ⟨bytes, hfill, hbytes⟩
    obtain rfl := Except.ok.inj hbytes
    exact hfill
  · intro hfill
    exact ⟨key.bytes, hfill, rfl⟩

/-- **A runnable derivation makes a key of its length**, whatever the password and the salt are. -/
theorem exists_deriveKey (password salt : Bytes) :
    ∃ key, kdf.deriveKey password salt = .ok key ∧ key.bytes.length = kdf.keyLength := by
  obtain ⟨bytes, hfill, hlen⟩ := kdf.exists_fill password salt kdf.keyLength_pos
  exact ⟨⟨bytes⟩, kdf.deriveKey_eq_ok_iff.mpr hfill, hlen⟩

theorem length_of_deriveKey {kdf : Kdf} {password salt : Bytes} {key : DerivedKey}
    (h : kdf.deriveKey password salt = .ok key) : key.bytes.length = kdf.keyLength := by
  obtain ⟨key', hkey', hlen⟩ := kdf.exists_deriveKey password salt
  obtain rfl := Except.ok.inj (h.symm.trans hkey')
  exact hlen

end Kdf

end Strongbox
