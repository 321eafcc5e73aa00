import Strongbox.Json.Text
import Strongbox.Proofs.Outcome
import Strongbox.Proofs.Text.Ascii
import Strongbox.Proofs.Text.Utf8

/-!
# Strings read back from every spelling

A character of a string stands for itself, or is written as an escape: with a letter, if it has one,
or with its code units in hexadecimal digits of either case. A string is read back from every such
spelling, in both ways to read one, from a text and from bytes. What the writer makes is one of
them: it has an escape for each character that must not stand as it is.

## Main definitions

* `Json.SpellsUnit`: four hexadecimal digits
* `Json.SpellsChar`, `Json.SpellsText`: the spellings of a character and of a text

## Main results

* `Json.hexUnit_eq_ok_iff`: four digits are read as the number they write
* `Json.text_of_spells`: a string is read back from every spelling
* `Json.spellsText_quoted`: what is written of a string is a spelling of it
-/

namespace Strongbox.Json

open Text.Utf8 (encode encodeChars)

/-! ## The bytes of the contents -/

/-- An escape stands for the bytes of its character. -/
theorem contents_escape {s rest : Bytes} {c : Char} (h : escape s = .ok (c, rest)) :
    contents (backslash :: s) =
      (contents rest).map fun p => (String.utf8EncodeChar c ++ p.1, p.2) := by
  rw [contents, if_neg (by decide), if_pos rfl]
  split
  · next h' => cases h.symm.trans h'
  · next h' =>
    obtain ⟨rfl, rfl⟩ := Prod.mk.inj (Except.ok.inj (h.symm.trans h'))
    rfl

/-- The bytes that stand for themselves: all but the quote, the backslash and control characters. -/
def IsPlain (b : UInt8) : Prop := b ≠ quote ∧ b ≠ backslash ∧ ¬b < 0x20

theorem contents_plain {b : UInt8} (h : IsPlain b) (s : Bytes) :
    contents (b :: s) = (contents s).map fun p => (b :: p.1, p.2) := by
  obtain ⟨hquote, hbackslash, hcontrol⟩ := h
  rw [contents, if_neg hquote, if_neg hbackslash, if_neg hcontrol]

theorem contents_append_plain {bytes : Bytes} (h : ∀ b ∈ bytes, IsPlain b) (s : Bytes) :
    contents (bytes ++ s) = (contents s).map fun p => (bytes ++ p.1, p.2) := by
  induction bytes with
  | nil =>
    rw [List.nil_append]
    cases contents s <;> rfl
  | cons b bytes ih =>
    rw [List.cons_append, contents_plain (h b List.mem_cons_self),
      ih fun b' hb' => h b' (List.mem_cons_of_mem b hb')]
    cases contents s <;> rfl

/-! ## Spellings -/

/-- A hexadecimal digit, of either case, and the number it stands for. -/
def IsHexDigit (n : Nat) (b : UInt8) : Prop :=
  n < 16 ∧ (b = (Nat.digitChar n).toUInt8 ∨ b = (Nat.digitChar n).toUpper.toUInt8)

instance (n : Nat) (b : UInt8) : Decidable (IsHexDigit n b) := by
  unfold IsHexDigit
  infer_instance

/-- Four hexadecimal digits, and the number they write. -/
def SpellsUnit (unit : Nat) (bytes : Bytes) : Prop :=
  ∃ n₁ n₂ n₃ n₄ b₁ b₂ b₃ b₄, IsHexDigit n₁ b₁ ∧ IsHexDigit n₂ b₂ ∧ IsHexDigit n₃ b₃ ∧
    IsHexDigit n₄ b₄ ∧ unit = 4096 * n₁ + 256 * n₂ + 16 * n₃ + n₄ ∧ bytes = [b₁, b₂, b₃, b₄]

/-- The letters that may follow a backslash, and the characters they stand for. -/
def letters : List (UInt8 × Char) :=
  [(quote, '"'), (backslash, '\\'), (0x2F, '/'), (0x62, '\x08'), (0x66, '\x0c'), (0x6E, '\n'),
    (0x72, '\r'), (0x74, '\t')]

/-- The spellings of a character in a string. -/
inductive SpellsChar : Char → Bytes → Prop where
  /-- It stands for itself. -/
  | raw {c : Char} (hcontrol : 0x20 ≤ c.toNat) (hquote : c ≠ '"') (hbackslash : c ≠ '\\') :
    SpellsChar c (String.utf8EncodeChar c)
  /-- A letter stands for it. -/
  | letter {b : UInt8} {c : Char} (h : (b, c) ∈ letters) : SpellsChar c [backslash, b]
  /-- It is named by its number. -/
  | unit {c : Char} {bytes : Bytes} (h : SpellsUnit c.toNat bytes) :
    SpellsChar c (backslash :: 0x75 :: bytes)
  /-- It is named by two code units, since its number has more than four digits. -/
  | pair {c : Char} {leading trailing : Bytes} (h : 0x10000 ≤ c.toNat)
    (hleading : SpellsUnit (0xD800 + (c.toNat - 0x10000) / 0x400) leading)
    (htrailing : SpellsUnit (0xDC00 + (c.toNat - 0x10000) % 0x400) trailing) :
    SpellsChar c (backslash :: 0x75 :: (leading ++ backslash :: 0x75 :: trailing))

/-- The spellings of a text between the quotes of a string. -/
inductive SpellsText : List Char → Bytes → Prop where
  | nil : SpellsText [] []
  | cons {c : Char} {cs : List Char} {bytes rest : Bytes} (h : SpellsChar c bytes)
    (hrest : SpellsText cs rest) : SpellsText (c :: cs) (bytes ++ rest)

/-! ## Escapes are read -/

theorem hexValue?_eq_some_iff {n : Nat} {b : UInt8} : hexValue? b = some n ↔ IsHexDigit n b := by
  have hsound : ∀ k < 256, ∀ n ∈ hexValue? (UInt8.ofNat k), IsHexDigit n (UInt8.ofNat k) := by
    decide +kernel
  have hcomplete : ∀ n < 16, hexValue? (Nat.digitChar n).toUInt8 = some n ∧
      hexValue? (Nat.digitChar n).toUpper.toUInt8 = some n := by
    decide
  constructor
  · intro h
    have hb := hsound b.toNat b.toNat_lt n
    rw [UInt8.ofNat_toNat] at hb
    exact hb h
  · rintro ⟨hn, rfl | rfl⟩
    · exact (hcomplete n hn).1
    · exact (hcomplete n hn).2

/-- Four digits are read as the number they write. -/
theorem hexUnit_eq_ok_iff {s rest : Bytes} {unit : Nat} :
    hexUnit s = .ok (unit, rest) ↔ ∃ bytes, SpellsUnit unit bytes ∧ s = bytes ++ rest := by
  constructor
  · intro h
    rw [hexUnit.eq_def] at h
    split at h
    · next b₁ b₂ b₃ b₄ rest' =>
      split at h
      · next value hvalue =>
        cases h
        simp only [hexUnit?, Option.bind_eq_bind, Option.bind_eq_some_iff, Option.pure_def,
          Option.some.injEq, hexValue?_eq_some_iff] at hvalue
        obtain ⟨n₁, h₁, n₂, h₂, n₃, h₃, n₄, h₄, hunit⟩ := hvalue
        exact ⟨_, ⟨n₁, n₂, n₃, n₄, b₁, b₂, b₃, b₄, h₁, h₂, h₃, h₄, hunit.symm, rfl⟩, rfl⟩
      · cases h
    · cases h
  · rintro ⟨_, ⟨n₁, n₂, n₃, n₄, b₁, b₂, b₃, b₄, h₁, h₂, h₃, h₄, rfl, rfl⟩, rfl⟩
    have hunit : hexUnit? b₁ b₂ b₃ b₄ = some (4096 * n₁ + 256 * n₂ + 16 * n₃ + n₄) := by
      simp only [hexUnit?, hexValue?_eq_some_iff.mpr h₁, hexValue?_eq_some_iff.mpr h₂,
        hexValue?_eq_some_iff.mpr h₃, hexValue?_eq_some_iff.mpr h₄]
      rfl
    simp only [List.cons_append, List.nil_append, hexUnit, hunit]

/-- A character is never half of a surrogate pair. -/
theorem toNat_not_surrogate (c : Char) :
    isTrailing c.toNat = false ∧ isLeading c.toNat = false := by
  have hvalid : c.toNat < 0xD800 ∨ 0xDFFF < c.toNat := c.valid.imp_right And.left
  constructor
  · rw [isTrailing, Bool.and_eq_false_iff, decide_eq_false_iff_not, decide_eq_false_iff_not]
    omega
  · rw [isLeading, Bool.and_eq_false_iff, decide_eq_false_iff_not, decide_eq_false_iff_not]
    omega

/-- A letter is read as the character it stands for. -/
theorem shortEscape?_eq_some_iff {b : UInt8} {c : Char} :
    shortEscape? b = some c ↔ (b, c) ∈ letters := by
  have hsound : ∀ k < 256, (shortEscape? (UInt8.ofNat k)).all
      (fun c => decide ((UInt8.ofNat k, c) ∈ letters)) = true := by
    decide +kernel
  have hcomplete : ∀ p ∈ letters, shortEscape? p.1 = some p.2 := by decide
  refine ⟨fun h => ?_, hcomplete (b, c)⟩
  have hb := hsound b.toNat b.toNat_lt
  rwa [UInt8.ofNat_toNat, h, Option.all_some, decide_eq_true_eq] at hb

theorem ne_of_mem_letters {b : UInt8} {c : Char} (h : (b, c) ∈ letters) : b ≠ 0x75 := by
  have hall : ∀ p ∈ letters, p.1 ≠ 0x75 := by decide
  exact hall (b, c) h

theorem unitEscape_unit {c : Char} {bytes : Bytes} (h : SpellsUnit c.toNat bytes) (s : Bytes) :
    unitEscape (bytes ++ s) = .ok (c, s) := by
  obtain ⟨htrailing, hleading⟩ := toNat_not_surrogate c
  simp only [unitEscape, hexUnit_eq_ok_iff.mpr ⟨bytes, h, rfl⟩, bind, Except.bind, htrailing,
    hleading, Char.ofNat_toNat]
  rfl

theorem unitEscape_pair {c : Char} {leading trailing : Bytes} (h : 0x10000 ≤ c.toNat)
    (hleading : SpellsUnit (0xD800 + (c.toNat - 0x10000) / 0x400) leading)
    (htrailing : SpellsUnit (0xDC00 + (c.toNat - 0x10000) % 0x400) trailing) (s : Bytes) :
    unitEscape (leading ++ backslash :: 0x75 :: (trailing ++ s)) = .ok (c, s) := by
  have hlast : c.toNat ≤ 0x10FFFF := by
    have := c.valid
    rw [UInt32.isValidChar, Nat.isValidChar] at this
    have : c.toNat = c.val.toNat := rfl
    omega
  have hlead : isTrailing (0xD800 + (c.toNat - 0x10000) / 0x400) = false ∧
      isLeading (0xD800 + (c.toNat - 0x10000) / 0x400) = true := by
    simp only [isTrailing, isLeading, Bool.and_eq_false_iff, Bool.and_eq_true, decide_eq_true_eq,
      decide_eq_false_iff_not]
    omega
  have htrail : isTrailing (0xDC00 + (c.toNat - 0x10000) % 0x400) = true := by
    simp only [isTrailing, Bool.and_eq_true, decide_eq_true_eq]
    omega
  have hpair : ofPair (0xD800 + (c.toNat - 0x10000) / 0x400)
      (0xDC00 + (c.toNat - 0x10000) % 0x400) = c := by
    have hnumber : 0x10000 + 0x400 * (0xD800 + (c.toNat - 0x10000) / 0x400 - 0xD800) +
        (0xDC00 + (c.toNat - 0x10000) % 0x400 - 0xDC00) = c.toNat := by
      omega
    rw [ofPair, hnumber, Char.ofNat_toNat]
  simp only [unitEscape, hexUnit_eq_ok_iff.mpr ⟨leading, hleading, rfl⟩, bind, Except.bind, hlead,
    pairByte, if_true, hexUnit_eq_ok_iff.mpr ⟨trailing, htrailing, rfl⟩, htrail, hpair]
  rfl

/-- A character that stands for itself has no byte that means anything else. -/
theorem isPlain_of_mem {c : Char} (hcontrol : 0x20 ≤ c.toNat) (hquote : c ≠ '"')
    (hbackslash : c ≠ '\\') {b : UInt8} (hb : b ∈ String.utf8EncodeChar c) : IsPlain b := by
  rcases Nat.lt_or_ge c.toNat 0x80 with h | h
  · rw [Text.Utf8.utf8EncodeChar_of_lt h, List.mem_singleton] at hb
    have htoNat : b.toNat = c.toNat := by
      rw [hb]
      exact UInt8.toNat_ofNat_of_lt' (Nat.lt_trans h (by decide))
    have hne : ∀ d : Char, c ≠ d → b.toNat ≠ d.toNat := fun d hd heq =>
      hd (Char.toNat_inj.mp (htoNat.symm.trans heq))
    refine ⟨fun h' => hne _ hquote (h' ▸ rfl), fun h' => hne _ hbackslash (h' ▸ rfl), ?_⟩
    rw [UInt8.not_lt, UInt8.le_iff_toNat_le, htoNat]
    exact hcontrol
  · have hle := UInt8.le_iff_toNat_le.mp (Text.Utf8.le_of_mem_utf8EncodeChar h hb)
    refine ⟨?_, ?_, ?_⟩
    · rintro rfl
      exact absurd hle (by decide)
    · rintro rfl
      exact absurd hle (by decide)
    · rw [UInt8.not_lt, UInt8.le_iff_toNat_le]
      exact Nat.le_trans (by decide) hle

/-! ## Strings are read -/

/-- A character is read from each of its spellings. -/
theorem contents_of_spellsChar {c : Char} {bytes : Bytes} (h : SpellsChar c bytes) (s : Bytes) :
    contents (bytes ++ s) = (contents s).map fun p => (String.utf8EncodeChar c ++ p.1, p.2) := by
  cases h with
  | raw hcontrol hquote hbackslash =>
    exact contents_append_plain (fun b hb => isPlain_of_mem hcontrol hquote hbackslash hb) s
  | @letter b c h =>
    have hescape : escape (b :: s) = .ok (c, s) := by
      rw [escape, if_neg (ne_of_mem_letters h), shortEscape?_eq_some_iff.mpr h]
    exact contents_escape hescape
  | @unit c bytes h =>
    have hescape : escape (0x75 :: (bytes ++ s)) = .ok (c, s) := by
      rw [escape, if_pos rfl, unitEscape_unit h]
    exact contents_escape hescape
  | @pair c leading trailing h hleading htrailing =>
    have hescape : escape (0x75 :: (leading ++ backslash :: 0x75 :: (trailing ++ s))) =
        .ok (c, s) := by
      rw [escape, if_pos rfl, unitEscape_pair h hleading htrailing]
    rw [← contents_escape hescape]
    simp only [List.cons_append, List.append_assoc]

theorem contents_of_spellsText {cs : List Char} {bytes : Bytes} (h : SpellsText cs bytes)
    (rest : Bytes) : contents (bytes ++ quote :: rest) = .ok (encodeChars cs, rest) := by
  induction h with
  | nil => rw [List.nil_append, contents, if_pos rfl, Text.Utf8.encodeChars_nil]
  | cons h _ ih =>
    rw [List.append_assoc, contents_of_spellsChar h, ih, Text.Utf8.encodeChars_cons]
    rfl

/-- **A string is read back from every spelling**, whether it comes from a text or from bytes. -/
theorem text_of_spells {s : String} {bytes : Bytes} (h : SpellsText s.toList bytes)
    (source : Source) (rest : Bytes) : text source (bytes ++ quote :: rest) = .ok (s, rest) := by
  simp only [text, contents_of_spellsText h, bind, Except.bind]
  cases source with
  | text =>
    show Except.ok (String.ofList _, rest) = _
    rw [Text.Utf8.decodeTrusted_encodeChars, String.ofList_toList]
  | bytes =>
    rw [show encodeChars s.toList = encode s from rfl, Text.Utf8.decode_encode]

/-! ## Strings are written -/

/-- A character with a letter of its own. -/
theorem spellsChar_letter (p : UInt8 × Char) (hp : p ∈ letters) :
    SpellsChar p.2 (encodeChars ['\\', Char.ofNat p.1.toNat]) := by
  have hbytes : ∀ p ∈ letters, encodeChars ['\\', Char.ofNat p.1.toNat] = [backslash, p.1] := by
    decide
  rw [hbytes p hp]
  exact .letter hp

/-- A control character is written with four digits, the first two of them zeros. -/
theorem exists_spellsUnit {n : Nat} (hn : n < 0x20) : ∃ bytes, SpellsUnit n bytes ∧
    encodeChars ['\\', 'u', '0', '0', Nat.digitChar (n / 16), Nat.digitChar (n % 16)] =
      backslash :: 0x75 :: bytes := by
  refine ⟨[0x30, 0x30, (Nat.digitChar (n / 16)).toUInt8, (Nat.digitChar (n % 16)).toUInt8],
    ⟨0, 0, n / 16, n % 16, _, _, _, _, by decide, by decide, ⟨by omega, .inl rfl⟩,
      ⟨by omega, .inl rfl⟩, by omega, rfl⟩, ?_⟩
  have hdigit : ∀ n < 16, (Nat.digitChar n).toNat < 128 := by decide
  refine Text.Utf8.encodeChars_of_ascii fun d hd => ?_
  simp only [List.mem_cons, List.not_mem_nil, or_false] at hd
  rcases hd with rfl | rfl | rfl | rfl | rfl | rfl
  iterate 4 decide
  · exact hdigit _ (by omega)
  · exact hdigit _ (by omega)

/-- What is written of a character is a spelling of it. -/
theorem spellsChar_quotedChar (c : Char) : SpellsChar c (encodeChars (quotedChar c)) := by
  rw [quotedChar]
  split
  · next h => exact h ▸ spellsChar_letter (quote, '"') (by decide)
  split
  · next h => exact h ▸ spellsChar_letter (backslash, '\\') (by decide)
  split
  · next h => exact h ▸ spellsChar_letter (0x62, '\x08') (by decide)
  split
  · next h => exact h ▸ spellsChar_letter (0x74, '\t') (by decide)
  split
  · next h => exact h ▸ spellsChar_letter (0x6E, '\n') (by decide)
  split
  · next h => exact h ▸ spellsChar_letter (0x66, '\x0c') (by decide)
  split
  · next h => exact h ▸ spellsChar_letter (0x72, '\r') (by decide)
  split
  · next h =>
    obtain ⟨bytes, hbytes, heq⟩ := exists_spellsUnit h
    rw [heq]
    exact .unit hbytes
  · next hquote hbackslash _ _ _ _ _ h =>
    rw [Text.Utf8.encodeChars_cons, Text.Utf8.encodeChars_nil, List.append_nil]
    exact .raw (Nat.not_lt.mp h) hquote hbackslash

/-- What is written of a string is a spelling of it. -/
theorem spellsText_quoted (cs : List Char) :
    SpellsText cs (encodeChars (cs.flatMap quotedChar)) := by
  induction cs with
  | nil => exact .nil
  | cons c cs ih =>
    rw [List.flatMap_cons, Text.Utf8.encodeChars_append]
    exact .cons (spellsChar_quotedChar c) ih

/-- A string is written between quotes. -/
theorem encode_quoted (s : String) :
    encode (quoted s) = quote :: (encodeChars (s.toList.flatMap quotedChar) ++ [quote]) := by
  have hquote : String.utf8EncodeChar '"' = [quote] := by decide
  rw [quoted, encode, String.toList_ofList, Text.Utf8.encodeChars_append,
    Text.Utf8.encodeChars_cons, Text.Utf8.encodeChars_cons, Text.Utf8.encodeChars_nil, hquote]
  simp

end Strongbox.Json
