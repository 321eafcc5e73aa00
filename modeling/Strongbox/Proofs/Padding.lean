import Mathlib.Data.List.Basic
import Strongbox.Aes.Padding

/-!
# Padding is unambiguous

A byte string is padded in exactly one way, and whole blocks that end in a padding are the padded
form of exactly one byte string. What is taken for a padding is pinned down byte by byte: whole
blocks are refused just when their last byte counts no padding, or a byte it counts differs
from it.

## Main definitions

* `Padding.Malformed`: the ways in which whole blocks end in no padding

## Main results

* `Padding.length_pad`: one block more than the whole blocks in front
* `Padding.unpad?_pad`, `Padding.eq_pad_of_unpad?`: padding and unpadding undo each other
* `Padding.unpad?_eq_none_iff`: whole blocks are refused just when they are malformed
-/

namespace Strongbox.Padding

/-- How the end of whole blocks can fail to be a padding. -/
inductive Malformed (padded : Bytes) : Prop where
  /-- The last byte counts nothing. -/
  | nothing (h : padded.getLast? = some 0)
  /-- The last byte counts more than a block. -/
  | tooMany (last : UInt8) (h : padded.getLast? = some last) (h' : 16 < last.toNat)
  /-- A byte that the last byte counts differs from it. -/
  | unlike (last b : UInt8) (h : padded.getLast? = some last)
      (hb : b ∈ padded.drop (padded.length - last.toNat)) (hne : b ≠ last)

theorem count_pos (length : Nat) : 0 < count length := by
  unfold count
  omega

theorem count_le (length : Nat) : count length ≤ 16 := by
  unfold count
  omega

theorem toNat_count (length : Nat) : (UInt8.ofNat (count length)).toNat = count length :=
  UInt8.toNat_ofNat_of_lt (Nat.lt_of_le_of_lt (count_le length) (by decide))

/-- A padded byte string has one block more than the whole blocks in front of its padding. -/
theorem length_pad (data : Bytes) : (pad data).length = 16 * (data.length / 16 + 1) := by
  rw [pad, List.length_append, List.length_replicate, count]
  omega

theorem getLast?_pad (data : Bytes) :
    (pad data).getLast? = some (UInt8.ofNat (count data.length)) := by
  have := count_pos data.length
  rw [pad, List.getLast?_append, List.getLast?_replicate, if_neg (by omega), Option.some_or]

/-- **Unpadding undoes padding**, at every length. -/
theorem unpad?_pad (data : Bytes) : unpad? (pad data) = some data := by
  have hlen : (pad data).length = data.length + count data.length := by
    rw [pad, List.length_append, List.length_replicate]
  have hkept : (pad data).length - count data.length = data.length := by
    rw [hlen, Nat.add_sub_cancel]
  have htake : (pad data).take data.length = data := List.take_left' rfl
  have hdrop : (pad data).drop data.length =
      List.replicate (count data.length) (UInt8.ofNat (count data.length)) := List.drop_left' rfl
  simp only [unpad?, getLast?_pad, toNat_count, hkept, htake, hdrop]
  rw [if_pos ⟨count_pos _, count_le _, hlen ▸ Nat.le_add_left _ _, by simp⟩]

/-- What a byte string starts with does not show in its padding, only how long it is. -/
theorem exists_of_pad_eq_append {data front back : Bytes} (h : pad data = front ++ back)
    (hle : front.length ≤ data.length) :
    ∃ mid, data = front ++ mid ∧
      ∀ front' : Bytes, front'.length = front.length → pad (front' ++ mid) = front' ++ back := by
  have hdata : data <+: pad data := List.prefix_append ..
  obtain ⟨mid, rfl⟩ : front <+: data :=
    List.prefix_of_prefix_length_le ⟨back, h.symm⟩ hdata hle
  refine ⟨mid, rfl, fun front' hlen => ?_⟩
  rw [pad, List.append_assoc] at h
  rw [pad, List.append_assoc, ← List.append_cancel_left h, List.length_append, List.length_append,
    hlen]

/-- **Padding undoes unpadding**: whole blocks that are accepted are the padded form of what they
are accepted as. -/
theorem eq_pad_of_unpad? {padded plain : Bytes} (hlen : 16 ∣ padded.length)
    (h : unpad? padded = some plain) : padded = pad plain := by
  rw [unpad?] at h
  split at h
  · cases h
  · rename_i last hlast
    dsimp only at h
    split at h
    · rename_i hgood
      obtain ⟨hpos, hle, hroom, hall⟩ := hgood
      obtain rfl := Option.some.inj h
      have hcount : count (padded.take (padded.length - last.toNat)).length = last.toNat := by
        rw [List.length_take, count]
        omega
      have hdrop : padded.drop (padded.length - last.toNat) = List.replicate last.toNat last := by
        refine List.eq_replicate_iff.mpr ⟨by rw [List.length_drop]; omega, fun b hb => ?_⟩
        simpa using List.all_eq_true.mp hall b hb
      rw [pad, hcount, UInt8.ofNat_toNat, ← hdrop, List.take_append_drop]
    · cases h

/-- **Whole blocks are refused just when they are malformed.** -/
theorem unpad?_eq_none_iff {padded : Bytes} (hlen : 16 ∣ padded.length) (hne : padded ≠ []) :
    unpad? padded = none ↔ Malformed padded := by
  have hpos : 0 < padded.length := List.length_pos_iff.mpr hne
  have hroom : 16 ≤ padded.length := Nat.le_of_dvd hpos hlen
  obtain ⟨last, hlast⟩ : ∃ last, padded.getLast? = some last :=
    ⟨_, List.getLast?_eq_some_getLast hne⟩
  simp only [unpad?, hlast]
  constructor
  · intro h
    by_contra hgood
    have hnz : last ≠ 0 := fun h0 => hgood (.nothing (h0 ▸ hlast))
    have hle : last.toNat ≤ 16 := Nat.le_of_not_lt fun hlt => hgood (.tooMany last hlast hlt)
    have hall : ∀ b ∈ padded.drop (padded.length - last.toNat), b = last := fun b hb => by
      by_contra hb'
      exact hgood (.unlike last b hlast hb hb')
    have hnz' : last.toNat ≠ 0 := fun h0 => hnz (UInt8.toNat_inj.mp h0)
    rw [if_pos ⟨Nat.pos_of_ne_zero hnz', hle, by omega,
      List.all_eq_true.mpr fun b hb => by simpa using hall b hb⟩] at h
    cases h
  · intro h
    refine if_neg fun hgood => ?_
    obtain ⟨hnz, hle, -, hall⟩ := hgood
    cases h with
    | nothing h0 =>
      obtain rfl := Option.some.inj (hlast.symm.trans h0)
      exact absurd hnz (by decide)
    | tooMany last' h' hlt =>
      obtain rfl := Option.some.inj (hlast.symm.trans h')
      omega
    | unlike last' b h' hb hb' =>
      obtain rfl := Option.some.inj (hlast.symm.trans h')
      exact hb' (by simpa using List.all_eq_true.mp hall b hb)

end Strongbox.Padding
