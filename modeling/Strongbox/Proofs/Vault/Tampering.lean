import Strongbox.Proofs.Vault.Basic

/-!
# What tampering does

Nothing in a payload tells that it was changed. A difference that is combined into one block of a
ciphertext comes out, as it is, in the plaintext block after it, and the plaintext block it stands
in is lost; everything else stays, for a block is combined with nothing but the ciphertext block
before it. The padding is looked at and nothing else is, so that a change that does not reach the
last two blocks is not noticed.

## Main definitions

* `Vault.Garbled j delta data data'`: a plaintext with a block lost and the one after it changed

## Main results

* `Cipher.decipher_append`: the cipher goes on with the last block in front
* `Cipher.exists_encrypt_xorAt`: a changed ciphertext is the ciphertext of a garbled plaintext
* `Vault.tampering_is_not_noticed`: a changed payload decrypts to a garbled plaintext
-/

namespace Strongbox

open Aes (Block RoundKeys)

/-- A plaintext in which a block was lost and the one after it changed by a difference. -/
structure Vault.Garbled (j : Nat) (delta data data' : Bytes) : Prop where
  /-- It is as long as it was. -/
  length : data'.length = data.length
  /-- The block is another one. -/
  lost : Bytes.blockAt 16 data' j ≠ Bytes.blockAt 16 data j
  /-- The block after it shows the difference. -/
  changed : Bytes.blockAt 16 data' (j + 1) = Bytes.xor (Bytes.blockAt 16 data (j + 1)) delta
  /-- Every byte of another block is as it was. -/
  kept : ∀ i, i / 16 ≠ j → i / 16 ≠ j + 1 → data'[i]? = data[i]?

namespace Vault.Garbled

/-- Two blocks are replaced, whatever stands in front of them and behind. -/
theorem of_append {j : Nat} {delta front x x' y back : Bytes} (hfront : front.length = 16 * j)
    (hx : x.length = 16) (hx' : x'.length = 16) (hy : y.length = 16) (hdelta : delta.length = 16)
    (hne : x' ≠ x) :
    Garbled j delta (front ++ (x ++ (y ++ back)))
      (front ++ (x' ++ (Bytes.xor y delta ++ back))) := by
  have hxor : (Bytes.xor y delta).length = 16 := by rw [Bytes.length_xor, hy, hdelta, Nat.min_self]
  have hnext {x : Bytes} (hx : x.length = 16) : (front ++ x).length = 16 * (j + 1) := by
    rw [List.length_append, hfront, hx, Nat.mul_succ]
  refine ⟨by simp only [List.length_append, hx, hx', hy, hxor], ?_, ?_, ?_⟩
  · rwa [Bytes.blockAt_append hfront hx', Bytes.blockAt_append hfront hx]
  · rw [← List.append_assoc front, ← List.append_assoc front,
      Bytes.blockAt_append (hnext hx') hxor, Bytes.blockAt_append (hnext hx) hy]
  · intro i hj hj'
    rcases Nat.lt_or_ge i (16 * j) with hlt | hge
    · rw [List.getElem?_append_left (by omega), List.getElem?_append_left (by omega)]
    · have hskip {x y : Bytes} (hx : x.length = 16) (hy : y.length = 16) :
          (front ++ (x ++ (y ++ back)))[i]? = back[i - (16 * j + 32)]? := by
        rw [List.getElem?_append_right (by omega), List.getElem?_append_right (by omega),
          List.getElem?_append_right (by omega), hfront, hx, hy, Nat.sub_sub, Nat.sub_sub]
      rw [hskip hx hy, hskip hx' hxor]

/-- The two blocks are replaced in front of the padding, which does not show what they are. -/
theorem exists_of_pad {j : Nat} {data delta front x x' y back : Bytes}
    (h : Padding.pad data = front ++ (x ++ (y ++ back))) (hj : 16 * (j + 2) ≤ data.length)
    (hfront : front.length = 16 * j) (hx : x.length = 16) (hx' : x'.length = 16)
    (hy : y.length = 16) (hdelta : delta.length = 16) (hne : x' ≠ x) :
    ∃ data', Garbled j delta data data' ∧
      Padding.pad data' = front ++ (x' ++ (Bytes.xor y delta ++ back)) := by
  have hxor : (Bytes.xor y delta).length = 16 := by rw [Bytes.length_xor, hy, hdelta, Nat.min_self]
  have hlength {x y : Bytes} (hx : x.length = 16) (hy : y.length = 16) :
      (front ++ (x ++ y)).length = 16 * (j + 2) := by
    rw [List.length_append, List.length_append, hfront, hx, hy, Nat.mul_add]
  have hpad : Padding.pad data = (front ++ (x ++ y)) ++ back := by
    simp only [h, List.append_assoc]
  obtain ⟨mid, rfl, hreplace⟩ := Padding.exists_of_pad_eq_append hpad (by rwa [hlength hx hy])
  refine ⟨front ++ (x' ++ (Bytes.xor y delta ++ mid)), ?_, ?_⟩
  · rw [List.append_assoc, List.append_assoc]
    exact of_append hfront hx hx' hy hdelta hne
  · have hpad' := hreplace (front ++ (x' ++ Bytes.xor y delta))
      ((hlength hx' hxor).trans (hlength hx hy).symm)
    simpa only [List.append_assoc] using hpad'

end Vault.Garbled

/-! ## The cipher -/

namespace Cipher

section Chaining

variable (keys : RoundKeys)

/-- The chain goes on with the last block in front. -/
theorem unchain_append (previous : Block) (xs ys : List Block) :
    unchain keys previous (xs ++ ys) =
      unchain keys previous xs ++ unchain keys (xs.getLastD previous) ys := by
  induction xs generalizing previous with
  | nil => rfl
  | cons x xs ih =>
    rw [List.cons_append, unchain, unchain, ih, List.cons_append, List.getLastD_cons]

variable {a x : Bytes}

/-- The cipher goes on with the last block in front. -/
theorem decipher_append (ha : 16 ∣ a.length) (start : Block) (b : Bytes) :
    decipher keys start (a ++ b) =
      decipher keys start a ++ decipher keys ((blocks a).getLastD start) b := by
  rw [decipher, decipher, decipher, blocks, blocks, Bytes.blocks_append (by decide) ha,
    List.map_append, unchain_append, bytes, List.flatMap_append]
  rfl

/-- The one block of a byte string. -/
theorem blocks_of_length (hx : x.length = 16) : blocks x = [Block.ofBytes x] := by
  rw [blocks, Bytes.blocks_of_length (by decide) hx, List.map_singleton]

theorem decipher_block_append (hx : x.length = 16) (start : Block) (b : Bytes) :
    decipher keys start (x ++ b) =
      decipher keys start x ++ decipher keys (Block.ofBytes x) b := by
  rw [decipher_append keys ⟨1, hx⟩, blocks_of_length hx]
  rfl

theorem length_decipher_block (hx : x.length = 16) (start : Block) :
    (decipher keys start x).length = 16 := by
  rw [length_decipher keys ⟨1, hx⟩, hx]

/-- A block is combined with the one before it after it was deciphered. -/
theorem decipher_block {previous : Bytes} (hprevious : previous.length = 16) (hx : x.length = 16) :
    decipher keys (Block.ofBytes previous) x =
      Bytes.xor (keys.decrypt (Block.ofBytes x)).toBytes previous := by
  rw [decipher, blocks_of_length hx, unchain, unchain, bytes, List.flatMap_singleton,
    Block.toBytes_xor, Block.toBytes_ofBytes hprevious]

/-- Only one byte string of whole blocks deciphers to a byte string. -/
theorem decipher_injective {start : Block} {b : Bytes} (ha : 16 ∣ a.length) (hb : 16 ∣ b.length)
    (h : decipher keys start a = decipher keys start b) : a = b := by
  rw [← encipher_decipher keys ha, h, encipher_decipher keys hb]

/-- **A difference in a block** of whole blocks: the block is lost, and the one after it shows the
difference. -/
theorem exists_decipher_xorAt {j : Nat} {data delta : Bytes} (hj : 16 * (j + 2) ≤ data.length)
    (hdelta : delta.length = 16) (hne : delta ≠ List.replicate 16 0) (start : Block) :
    ∃ front x x' y back : Bytes, front.length = 16 * j ∧ x.length = 16 ∧ x'.length = 16 ∧
      y.length = 16 ∧ x' ≠ x ∧ decipher keys start data = front ++ (x ++ (y ++ back)) ∧
      decipher keys start (Bytes.xorAt data (16 * j) delta) =
        front ++ (x' ++ (Bytes.xor y delta ++ back)) := by
  obtain ⟨a, x, y, b, rfl, ha, hx, hy⟩ := Bytes.exists_of_two_blocks hj
  have hx' : (Bytes.xor x delta).length = 16 := by rw [Bytes.length_xor, hx, hdelta, Nat.min_self]
  have htampered : Bytes.xorAt (a ++ (x ++ (y ++ b))) (16 * j) delta =
      a ++ (Bytes.xor x delta ++ (y ++ b)) := by
    rw [← ha, ← Nat.add_zero a.length, Bytes.xorAt_append, Bytes.xorAt_zero (hx.trans hdelta.symm)]
  -- the block goes into its own plaintext and into the one of the next block
  have hdecipher {x : Bytes} (hx : x.length = 16) :
      decipher keys start (a ++ (x ++ (y ++ b))) =
        decipher keys start a ++ (decipher keys ((blocks a).getLastD start) x ++
          (decipher keys (Block.ofBytes x) y ++ decipher keys (Block.ofBytes y) b)) := by
    rw [decipher_append keys ⟨j, ha⟩, decipher_block_append keys hx, decipher_block_append keys hy]
  refine ⟨decipher keys start a, decipher keys ((blocks a).getLastD start) x,
    decipher keys ((blocks a).getLastD start) (Bytes.xor x delta),
    decipher keys (Block.ofBytes x) y, decipher keys (Block.ofBytes y) b,
    (length_decipher keys ⟨j, ha⟩).trans ha, length_decipher_block keys hx _,
    length_decipher_block keys hx' _, length_decipher_block keys hy _, ?_, hdecipher hx, ?_⟩
  · intro heq
    have hsame : Bytes.xor x delta = x := decipher_injective keys ⟨1, hx'⟩ ⟨1, hx⟩ heq
    apply hne
    rw [Bytes.eq_replicate_of_xor_eq (hx.trans hdelta.symm) hsame, hdelta]
  · rw [htampered, hdecipher hx', decipher_block keys hx' hy, decipher_block keys hx hy,
      Bytes.xor_assoc]

end Chaining

/-- **A changed ciphertext is the ciphertext of a garbled plaintext**, if the change does not reach
the last two blocks, of which one has the padding and the other one changes it. -/
theorem exists_encrypt_xorAt {key iv data ciphertext delta : Bytes} {j : Nat}
    (h : encrypt key iv data = .ok ciphertext) (hj : j + 1 < data.length / 16)
    (hdelta : delta.length = 16) (hne : delta ≠ List.replicate 16 0) :
    ∃ data', Vault.Garbled j delta data data' ∧
      encrypt key iv data' = .ok (Bytes.xorAt ciphertext (16 * j) delta) := by
  cases hset : setUp key iv with
  | error error =>
    rw [encrypt_of_setUp_error hset] at h
    cases h
  | ok p =>
    obtain ⟨keys, start⟩ := p
    rw [encrypt_of_setUp hset] at h
    obtain rfl := Except.ok.inj h
    have hdvd := sixteen_dvd_length_pad data
    have hlength : (encipher keys start (Padding.pad data)).length =
        16 * (data.length / 16 + 1) := by
      rw [length_encipher keys hdvd, Padding.length_pad]
    have hroom : 16 * (j + 2) ≤ (encipher keys start (Padding.pad data)).length := by omega
    obtain ⟨front, x, x', y, back, hfront, hx, hx', hy, hxne, hplain, htampered⟩ :=
      exists_decipher_xorAt keys hroom hdelta hne start
    rw [decipher_encipher keys hdvd] at hplain
    obtain ⟨data', hgarbled, hpad⟩ := Vault.Garbled.exists_of_pad hplain (by omega) hfront hx hx'
      hy hdelta hxne
    refine ⟨data', hgarbled, ?_⟩
    rw [encrypt_of_setUp hset, hpad, ← htampered, encipher_decipher]
    rw [Bytes.length_xorAt (by omega), hlength]
    exact Nat.dvd_mul_right ..

end Cipher

/-! ## Vaults -/

namespace Vault

/-- A changed payload is the payload of a garbled plaintext, under the vector it has. -/
theorem Sealed.exists_xorAt {kdf : Kdf} {password : Password} {iv data payload delta : Bytes}
    {j : Nat} (h : Sealed kdf password iv data payload) (hiv : iv.length = 16)
    (hj : j + 1 < data.length / 16) (hdelta : delta.length = 16)
    (hne : delta ≠ List.replicate 16 0) :
    ∃ data', Garbled j delta data data' ∧
      Sealed kdf password iv data' (Bytes.xorAt payload (16 * (j + 1)) delta) := by
  obtain ⟨key, ciphertext, hkey, hcipher, rfl⟩ := h
  obtain ⟨data', hgarbled, hcipher'⟩ := Cipher.exists_encrypt_xorAt hcipher hj hdelta hne
  refine ⟨data', hgarbled, key, _, hkey, hcipher', ?_⟩
  rw [← Bytes.xorAt_append, hiv, Nat.mul_succ, Nat.add_comm]

/-- **Tampering is not noticed, and this is what it does.** A vault that is not closed seals every
byte string, as a vector and then blocks of which there is one more than the plaintext has whole
ones. Let a payload be of that kind, and let a difference, any but zeros, be combined into one of
its blocks other than the vector and the last two. Then the payload still decrypts. The plaintext
is as long as before; in the place of the block it is another one, in the place of the block after
it the difference shows, and nowhere else is anything changed. Blocks are counted from zero, so that
block `j` of the ciphertext starts at `16 * (j + 1)`, behind the vector. -/
theorem tampering_is_not_noticed (vault : AesVault) (hactive : vault.isDestroyed = false) :
    (∀ data, ∃ payload next,
      vault.encrypt data = .ok (payload, next) ∧ vault.decrypt payload = .ok data) ∧
    ∀ data payload, vault.decrypt payload = .ok data →
      ∃ m, payload.length = 16 + 16 * m ∧ m = data.length / 16 + 1 ∧
        ∀ j delta, j + 2 < m → delta.length = 16 → delta ≠ List.replicate 16 0 →
          ∃ data', vault.decrypt (Bytes.xorAt payload (16 * (j + 1)) delta) = .ok data' ∧
            Garbled j delta data data' := by
  obtain ⟨password, hpassword⟩ : ∃ password, vault.password = some password := by
    apply Option.isSome_iff_exists.mp
    rwa [← Option.not_isNone, Bool.not_eq_true', ← AesVault.isDestroyed]
  refine ⟨fun data => ?_, fun data payload hdecrypt => ?_⟩
  · obtain ⟨payload, hsealed, hencrypt⟩ := AesVault.exists_encrypt hpassword data
    have hiv := (Iv.draw vault.random).1.length_bytes
    exact ⟨payload, _, hencrypt, (AesVault.decrypt_eq_ok_iff hpassword).mpr ⟨_, hiv, hsealed⟩⟩
  · obtain ⟨iv, hiv, hsealed⟩ := (AesVault.decrypt_eq_ok_iff hpassword).mp hdecrypt
    refine ⟨_, hsealed.length_payload hiv, rfl, fun j delta hj hdelta hne => ?_⟩
    obtain ⟨data', hgarbled, hsealed'⟩ := hsealed.exists_xorAt hiv (Nat.lt_of_succ_lt_succ hj)
      hdelta hne
    exact ⟨data', (AesVault.decrypt_eq_ok_iff hpassword).mpr ⟨iv, hiv, hsealed'⟩, hgarbled⟩

/-- One bit of the first of three blocks, of a plaintext that ends with its second block. -/
theorem tampering_is_not_noticed_of_two_blocks :
    let kdf : Kdf := ⟨.legacy .md5 ⟨16, by decide, by decide⟩, rfl⟩
    let data : Bytes := List.replicate 32 97
    let delta : Bytes := 1 :: List.replicate 15 0
    ∃ vault payload next data', AesVault.open kdf ⟨[112]⟩ .hex (.ofStream UInt8.ofNat) = .ok vault ∧
      vault.encrypt data = .ok (payload, next) ∧ payload.length = 64 ∧
      vault.decrypt (Bytes.xorAt payload 16 delta) = .ok data' ∧ data'.length = 32 ∧
      data'.drop 16 = 96 :: List.replicate 15 97 ∧ data'.take 16 ≠ data.take 16 := by
  intro kdf data delta
  have hfilled : Password.isEmpty ⟨[112]⟩ = false := rfl
  have hkeyLength : kdf.keyLength ∈ [16, 24, 32] := by decide
  obtain ⟨vault, hopen⟩ := AesVault.exists_open hfilled hkeyLength .hex (.ofStream UInt8.ofNat)
  obtain ⟨-, -, -, hpassword⟩ := AesVault.eq_of_open hopen
  have hactive : vault.isDestroyed = false := by
    rw [AesVault.isDestroyed, hpassword, Option.isNone_some]
  obtain ⟨hencrypts, htampering⟩ := tampering_is_not_noticed vault hactive
  obtain ⟨payload, next, hencrypt, hdecrypt⟩ := hencrypts data
  obtain ⟨m, hlength, rfl, hall⟩ := htampering data payload hdecrypt
  obtain ⟨data', hdata', hgarbled⟩ := hall 0 delta (by decide) rfl (by decide)
  have hlen : data'.length = 32 := hgarbled.length
  refine ⟨vault, payload, next, data', hopen, hencrypt,
    hlength.trans (by decide), hdata', hlen, ?_, ?_⟩
  · have htake : (data'.drop 16).take 16 = data'.drop 16 :=
      List.take_of_length_le (by rw [List.length_drop, hlen])
    exact htake.symm.trans hgarbled.changed
  · simpa only [Bytes.blockAt_zero] using hgarbled.lost

end Vault

end Strongbox
