import Strongbox.Codec.Hex

/-!
# Hexadecimal reads back

## Main results

* `Hex.decode_encode`: the digits of a byte string read back as it
* `Hex.exists_digit_of_mem_encode`, `Hex.toNat_lt_of_mem_encode`: what is written is digits, and
  ASCII characters
-/

namespace Strongbox.Hex

theorem toNat_digit_lt : ∀ value < 16, (digit value).toNat < 128 := by
  decide

/-- Every character that is written is the digit of a value. -/
theorem exists_digit_of_mem_encode {data : Bytes} {c : Char} (h : c ∈ encode data) :
    ∃ value < 16, c = digit value := by
  obtain ⟨b, -, hpair⟩ := List.mem_flatMap.mp h
  have hb := b.toNat_lt
  rw [pair, List.mem_cons, List.mem_singleton] at hpair
  rcases hpair with rfl | rfl
  · exact ⟨b.toNat / 16, by omega, rfl⟩
  · exact ⟨b.toNat % 16, by omega, rfl⟩

/-- The digits are ASCII characters. -/
theorem toNat_lt_of_mem_encode {data : Bytes} {c : Char} (h : c ∈ encode data) :
    c.toNat < 128 := by
  obtain ⟨value, hvalue, rfl⟩ := exists_digit_of_mem_encode h
  exact toNat_digit_lt value hvalue

theorem digitAt_digit (offset : Nat) {value : Nat} (h : value < 16) :
    digitAt offset (digit value).toUInt8 = .ok value := by
  rw [digitAt, value?_digit value h]

theorem decodeFrom_encode (offset : Nat) (data : Bytes) :
    decodeFrom offset ((encode data).map Char.toUInt8) = .ok data := by
  induction data generalizing offset with
  | nil => rfl
  | cons b data ih =>
    have hb := b.toNat_lt
    have hhigh : digitAt offset (digit (b.toNat / 16)).toUInt8 = .ok (b.toNat / 16) :=
      digitAt_digit offset (by omega)
    have hlow : digitAt (offset + 1) (digit (b.toNat % 16)).toUInt8 = .ok (b.toNat % 16) :=
      digitAt_digit (offset + 1) (by omega)
    have hval : 16 * (b.toNat / 16) + b.toNat % 16 = b.toNat := Nat.div_add_mod b.toNat 16
    rw [encode_cons, pair, List.map_append, List.map_cons, List.map_singleton, List.cons_append,
      List.singleton_append, decodeFrom, hhigh, hlow, ih]
    simp only [bind, Except.bind, hval, UInt8.ofNat_toNat]
    rfl

/-- **The digits of a byte string read back as it.** -/
theorem decode_encode (data : Bytes) : decode ((encode data).map Char.toUInt8) = .ok data := by
  rw [decode, List.length_map, length_encode, if_neg (by omega), decodeFrom_encode]

end Strongbox.Hex
