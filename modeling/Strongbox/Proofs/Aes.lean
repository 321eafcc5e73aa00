import Mathlib.Data.List.Basic
import Strongbox.Aes.Cipher

/-!
# AES is a permutation of the blocks

Under every expanded key, encryption and decryption of a block undo each other, in both orders.
Each step of a round has a two-sided inverse: the substitution by its table, the shift of the rows
by going back, and the mixing because its fourth power is the identity, which is all that is used
of the field of 256 elements. The rounds then cancel one by one.

## Main results

* `Aes.double_xor`: doubling is additive
* `Column.unmix_mix`, `Column.mix_unmix`: the mixing and its inverse
* `Block.unround_round`, `Block.round_unround`: a round and its inverse
* `RoundKeys.decrypt_encrypt`, `RoundKeys.encrypt_decrypt`: the cipher and its inverse
* `Block.ofBytes_toBytes`, `Block.toBytes_ofBytes`: blocks are byte strings of length sixteen
-/

namespace Strongbox.Aes

/-! ## Bytes -/

theorem xor_left_comm (a b c : UInt8) : a ^^^ (b ^^^ c) = b ^^^ (a ^^^ c) := by
  rw [← UInt8.xor_assoc, UInt8.xor_comm a b, UInt8.xor_assoc]

theorem xor_cancel_left (a b : UInt8) : a ^^^ (a ^^^ b) = b := by
  rw [← UInt8.xor_assoc, UInt8.xor_self, UInt8.zero_xor]

theorem xor_cancel_right (a b : UInt8) : a ^^^ b ^^^ b = a := by
  rw [UInt8.xor_assoc, UInt8.xor_self, UInt8.xor_zero]

/-- The test for the leading bit, as a bit. -/
theorem double_eq (b : UInt8) : double b = b <<< 1 ^^^ (if b.toBitVec.msb then 0x1B else 0) := by
  have h : b < 0x80 ↔ b.toBitVec.msb = false := by
    rw [BitVec.msb_eq_decide, UInt8.lt_iff_toBitVec_lt, BitVec.lt_def]
    simp
  by_cases hb : b < 0x80
  · simp [double, hb, h.mp hb]
  · have hmsb : b.toBitVec.msb = true := by simpa using fun h' => hb (h.mpr h')
    simp [double, hb, hmsb]

/-- **Doubling is additive**: the leading bit of a sum is the sum of the leading bits. -/
theorem double_xor (a b : UInt8) : double (a ^^^ b) = double a ^^^ double b := by
  rw [double_eq, double_eq, double_eq, UInt8.toBitVec_xor, BitVec.msb_xor, UInt8.shiftLeft_xor]
  cases a.toBitVec.msb <;> cases b.toBitVec.msb <;>
    simp [UInt8.xor_assoc, UInt8.xor_comm, xor_left_comm]

/-! ## Columns -/

namespace Column

theorem xor_xor_cancel (c d : Column) : (c.xor d).xor d = c := by
  simp only [xor, xor_cancel_right]

theorem map_restore_substitute (c : Column) : (c.map substitute).map restore = c := by
  simp only [map, restore_substitute]

theorem map_substitute_restore (c : Column) : (c.map restore).map substitute = c := by
  simp only [map, substitute_restore]

/-- The spreading is the square of the mixing. -/
theorem mix_mix (c : Column) : c.mix.mix = c.spread := by
  simp only [mix, spread, blend, double_xor, mk.injEq]
  -- Each byte is a sum of bytes and their doubles; what stands in it twice cancels.
  refine ⟨?_, ?_, ?_, ?_⟩ <;>
    simp only [UInt8.xor_comm, xor_left_comm, UInt8.xor_assoc, xor_cancel_left, UInt8.xor_self,
      UInt8.zero_xor]

/-- The spreading undoes itself. -/
theorem spread_spread (c : Column) : c.spread.spread = c := by
  obtain ⟨b0, b1, b2, b3⟩ := c
  simp only [spread, double_xor, mk.injEq]
  refine ⟨?_, ?_, ?_, ?_⟩ <;>
    simp only [UInt8.xor_comm, xor_left_comm, UInt8.xor_assoc, UInt8.xor_self, UInt8.xor_zero]

theorem mix_spread (c : Column) : c.spread.mix = c.mix.spread := by
  rw [← mix_mix, ← mix_mix]

theorem unmix_mix (c : Column) : c.mix.unmix = c := by
  calc c.mix.unmix = c.spread.mix.mix := by rw [unmix, ← mix_spread]
    _ = c := by rw [mix_mix, spread_spread]

theorem mix_unmix (c : Column) : c.unmix.mix = c := by
  rw [unmix, mix_mix, spread_spread]

end Column

/-! ## Blocks -/

namespace Block

theorem xor_xor_cancel (x y : Block) : (x.xor y).xor y = x := by
  simp only [xor, Column.xor_xor_cancel]

/-- Blocks combine as their byte strings. -/
theorem toBytes_xor (x y : Block) : (x.xor y).toBytes = Bytes.xor x.toBytes y.toBytes := rfl

theorem unshift_shift (x : Block) : x.shift.unshift = x := rfl

theorem shift_unshift (x : Block) : x.unshift.shift = x := rfl

theorem gather_scatter (x : Block) : x.scatter.gather = x := by
  rw [gather, scatter, unshift_shift]
  simp only [map, Column.map_restore_substitute]

theorem scatter_gather (x : Block) : x.gather.scatter = x := by
  have h : (x.unshift.map (.map restore)).map (.map substitute) = x.unshift := by
    simp only [map, Column.map_substitute_restore]
  rw [gather, scatter, h, shift_unshift]

/-- A round is undone. -/
theorem unround_round (x : Block) : x.round.unround = x := by
  have h : (x.scatter.map .mix).map .unmix = x.scatter := by
    simp only [map, Column.unmix_mix]
  rw [unround, round, h, gather_scatter]

/-- Every block is the outcome of a round. -/
theorem round_unround (x : Block) : x.unround.round = x := by
  rw [unround, round, scatter_gather]
  simp only [map, Column.mix_unmix]

theorem ofBytes_toBytes (x : Block) : ofBytes x.toBytes = x := rfl

/-- A byte string of the length of a block is the byte string of its block. -/
theorem toBytes_ofBytes {data : Bytes} (h : data.length = 16) : (ofBytes data).toBytes = data := by
  match data, h with
  | [_, _, _, _, _, _, _, _, _, _, _, _, _, _, _, _], _ => rfl

end Block

/-! ## The cipher -/

namespace RoundKeys

variable (keys : RoundKeys)

/-- The inner rounds are undone in the opposite order. -/
theorem foldr_foldl_round (middle : List Block) (x : Block) :
    middle.foldr (fun key y => (y.xor key).unround)
      (middle.foldl (fun y key => y.round.xor key) x) = x := by
  induction middle generalizing x with
  | nil => rfl
  | cons key middle ih =>
    rw [List.foldl_cons, List.foldr_cons, ih, Block.xor_xor_cancel, Block.unround_round]

theorem foldl_foldr_round (middle : List Block) (x : Block) :
    middle.foldl (fun y key => y.round.xor key)
      (middle.foldr (fun key y => (y.xor key).unround) x) = x := by
  induction middle with
  | nil => rfl
  | cons key middle ih =>
    rw [List.foldr_cons, List.foldl_cons, Block.round_unround, Block.xor_xor_cancel, ih]

/-- **Decryption undoes encryption**, under every expanded key. -/
theorem decrypt_encrypt (x : Block) : keys.decrypt (keys.encrypt x) = x := by
  rw [decrypt, encrypt, Block.xor_xor_cancel, Block.gather_scatter, foldr_foldl_round,
    Block.xor_xor_cancel]

/-- **Encryption undoes decryption**: every block is the encryption of one. -/
theorem encrypt_decrypt (x : Block) : keys.encrypt (keys.decrypt x) = x := by
  rw [decrypt, encrypt, Block.xor_xor_cancel, foldl_foldr_round, Block.scatter_gather,
    Block.xor_xor_cancel]

end RoundKeys

end Strongbox.Aes
