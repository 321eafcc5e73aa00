import Strongbox.Text.Utf8

/-!
# Texts of ASCII characters

A character below 128 is a single byte in UTF-8, so that a text of such characters has one byte a
character.

## Main results

* `Utf8.encodeChars_of_ascii`, `Utf8.encode_ofList_of_ascii`: the bytes of such a text
-/

namespace Strongbox.Text.Utf8

theorem utf8EncodeChar_of_lt {c : Char} (h : c.toNat < 128) :
    String.utf8EncodeChar c = [c.toUInt8] := by
  refine String.utf8EncodeChar_eq_singleton (Char.utf8Size_eq_one_iff.mpr ?_)
  exact UInt32.le_iff_toNat_le.mpr (Nat.le_of_lt_succ h)

/-- A text of ASCII characters has one byte a character. -/
theorem encodeChars_of_ascii {cs : List Char} (h : ∀ c ∈ cs, c.toNat < 128) :
    encodeChars cs = cs.map Char.toUInt8 := by
  induction cs with
  | nil => rfl
  | cons c cs ih =>
    rw [encodeChars_cons, utf8EncodeChar_of_lt (h c List.mem_cons_self),
      ih fun d hd => h d (List.mem_cons_of_mem c hd), List.map_cons, List.singleton_append]

theorem encode_ofList_of_ascii {cs : List Char} (h : ∀ c ∈ cs, c.toNat < 128) :
    encode (String.ofList cs) = cs.map Char.toUInt8 := by
  rw [encode, String.toList_ofList, encodeChars_of_ascii h]

end Strongbox.Text.Utf8
