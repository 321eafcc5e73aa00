import Mathlib.Data.Nat.Notation
import Strongbox.Text.Utf8

/-!
# Texts read back from their bytes

Both ways to read UTF-8 take the bytes of a text for that text: the one that checks every byte, and
the one that takes it for granted that the bytes are a text. Each takes the bytes of a character
off the front and goes on with what follows. A text can be cut at every ASCII byte, since no longer
character has one.

## Main definitions

* `Utf8.IsText`, `Utf8.IsTail`: the bytes of a text, and what can be left of them

## Main results

* `Utf8.decodeFrom_utf8EncodeChar`, `Utf8.decodeTrusted_utf8EncodeChar`: one character
* `Utf8.decode_encode`, `Utf8.decodeTrusted_encodeChars`: a text
* `Utf8.le_of_mem_utf8EncodeChar`: characters that are not ASCII have no ASCII byte
* `IsText.of_cut`: a text that is cut at an ASCII byte
* `IsText.decode_eq`: both ways to read a text agree
-/

namespace Strongbox.Text.Utf8

/-! ## The bytes of a character -/

/-- The byte that continues a character with six more of its bits. -/
def continuation (bits : Nat) : UInt8 := UInt8.ofNat (bits % 64 + 128)

theorem toNat_continuation (bits : Nat) : (continuation bits).toNat = bits % 64 + 128 := by
  rw [continuation, UInt8.toNat_ofNat']
  omega

/-- The bytes of a character, by its number. -/
theorem utf8EncodeChar_cases (c : Char) :
    c.toNat < 0x80 ∧ String.utf8EncodeChar c = [UInt8.ofNat c.toNat] ∨
    (0x80 ≤ c.toNat ∧ c.toNat < 0x800) ∧
      String.utf8EncodeChar c =
        [UInt8.ofNat (c.toNat / 64 + 0xC0), continuation c.toNat] ∨
    (0x800 ≤ c.toNat ∧ c.toNat < 0x10000 ∧ ¬(0xD800 ≤ c.toNat ∧ c.toNat < 0xE000)) ∧
      String.utf8EncodeChar c =
        [UInt8.ofNat (c.toNat / 4096 + 0xE0), continuation (c.toNat / 64),
          continuation c.toNat] ∨
    (0x10000 ≤ c.toNat ∧ c.toNat < 0x110000) ∧
      String.utf8EncodeChar c =
        [UInt8.ofNat (c.toNat / 262144 + 0xF0), continuation (c.toNat / 4096),
          continuation (c.toNat / 64), continuation c.toNat] := by
  have hvalid : c.toNat < 0xD800 ∨ 0xDFFF < c.toNat ∧ c.toNat < 0x110000 := c.valid
  have hval : c.val.toNat = c.toNat := rfl
  rw [String.utf8EncodeChar, hval]
  -- the cases are those the encoder tests for; only the last one needs that the number is one of a
  -- character, and the one before it that no surrogate is one
  rcases Nat.lt_or_ge c.toNat 0x80 with h | h
  · exact .inl ⟨h, if_pos (by omega)⟩
  rcases Nat.lt_or_ge c.toNat 0x800 with h' | h'
  · refine .inr (.inl ⟨⟨h, h'⟩, ?_⟩)
    rw [if_neg (by omega), if_pos (by omega), continuation, Nat.mod_eq_of_lt (by omega)]
  rcases Nat.lt_or_ge c.toNat 0x10000 with h'' | h''
  · refine .inr (.inr (.inl ⟨⟨h', h'', by omega⟩, ?_⟩))
    rw [if_neg (by omega), if_neg (by omega), if_pos (by omega), continuation, continuation,
      Nat.mod_eq_of_lt (by omega)]
  · refine .inr (.inr (.inr ⟨⟨h'', by omega⟩, ?_⟩))
    rw [if_neg (by omega), if_neg (by omega), if_neg (by omega), continuation, continuation,
      continuation, Nat.mod_eq_of_lt (by omega)]

/-- Characters that are not ASCII have no ASCII byte. -/
theorem le_of_mem_utf8EncodeChar {c : Char} (h : 0x80 ≤ c.toNat) {b : UInt8}
    (hb : b ∈ String.utf8EncodeChar c) : 0x80 ≤ b := by
  rw [UInt8.le_iff_toNat_le]
  show 128 ≤ b.toNat
  have hcontinuation : ∀ bits, 128 ≤ (continuation bits).toNat := fun bits => by
    rw [toNat_continuation]
    omega
  have hlead : ∀ n, 128 ≤ n → n < 256 → 128 ≤ (UInt8.ofNat n).toNat := fun n hn hn' => by
    rw [UInt8.toNat_ofNat']
    omega
  rcases utf8EncodeChar_cases c with ⟨h', _⟩ | ⟨h', heq⟩ | ⟨h', heq⟩ | ⟨h', heq⟩
  · omega
  all_goals
    rw [heq] at hb
    simp only [List.mem_cons, List.not_mem_nil, or_false] at hb
  · rcases hb with rfl | rfl
    · exact hlead _ (by omega) (by omega)
    · exact hcontinuation _
  · rcases hb with rfl | rfl | rfl
    · exact hlead _ (by omega) (by omega)
    all_goals exact hcontinuation _
  · rcases hb with rfl | rfl | rfl | rfl
    · exact hlead _ (by omega) (by omega)
    all_goals exact hcontinuation _

/-- A text of ASCII bytes is one of ASCII characters. -/
theorem toNat_lt_of_encodeChars {cs : List Char} (h : ∀ b ∈ encodeChars cs, b < 0x80) {c : Char}
    (hc : c ∈ cs) : c.toNat < 0x80 := by
  refine Nat.lt_of_not_le fun hge => ?_
  have hne : String.utf8EncodeChar c ≠ [] := by simp
  obtain ⟨b, hb⟩ := List.exists_mem_of_ne_nil _ hne
  have hmem : b ∈ encodeChars cs := List.mem_flatMap.mpr ⟨c, hc, hb⟩
  exact absurd (h b hmem) (UInt8.not_lt.mpr (le_of_mem_utf8EncodeChar hge hb))

/-! ## Reading with every byte checked -/

/-- The states after the first bytes of characters of two, three and four bytes. -/
theorem afterLead_two : ∀ n < 32, 2 ≤ n →
    State.afterLead (UInt8.ofNat (n + 0xC0)) = some (.inside 1 0 0x80 0xBF n) := by
  decide

theorem afterLead_three : ∀ n < 16, State.afterLead (UInt8.ofNat (n + 0xE0)) =
    some (.inside 1 1 (if n = 0 then 0xA0 else 0x80) (if n = 13 then 0x9F else 0xBF) n) := by
  decide

theorem afterLead_four : ∀ n < 5, State.afterLead (UInt8.ofNat (n + 0xF0)) =
    some (.inside 1 2 (if n = 0 then 0x90 else 0x80) (if n = 4 then 0x8F else 0xBF) n) := by
  decide

/-- No ASCII byte leads into a longer character. -/
theorem afterLead_ascii : ∀ n < 0x80, State.afterLead (UInt8.ofNat n) = none := by
  decide

/-- The first byte of a longer character leads inside it. -/
theorem decodeFrom_lead {b : UInt8} {state : State} (h : State.afterLead b = some state)
    (start : Nat) (rest : Bytes) :
    decodeFrom .between start (b :: rest) = decodeFrom state start rest := by
  have hb : ¬b < 0x80 := by
    intro hlt
    rw [← UInt8.ofNat_toNat (x := b), afterLead_ascii _ (UInt8.lt_iff_toNat_lt.mp hlt)] at h
    cases h
  rw [decodeFrom, if_neg hb, h]

/-- A continuation byte passes between bounds that hold its number. -/
theorem continuation_between {low high : UInt8} {bits : Nat} (hlow : low.toNat ≤ bits % 64 + 128)
    (hhigh : bits % 64 + 128 ≤ high.toNat) :
    (decide (low ≤ continuation bits) && decide (continuation bits ≤ high)) = true := by
  rw [Bool.and_eq_true, decide_eq_true_eq, decide_eq_true_eq, UInt8.le_iff_toNat_le,
    UInt8.le_iff_toNat_le, toNat_continuation]
  exact ⟨hlow, hhigh⟩

/-- A continuation byte that is not the last adds its six bits. -/
theorem decodeFrom_inside {low high : UInt8} {bits : Nat} (hlow : low.toNat ≤ bits % 64 + 128)
    (hhigh : bits % 64 + 128 ≤ high.toNat) (seen owed code start : Nat) (rest : Bytes) :
    decodeFrom (.inside seen (owed + 1) low high code) start (continuation bits :: rest) =
      decodeFrom (.inside (seen + 1) owed 0x80 0xBF (64 * code + bits % 64)) start rest := by
  have hpayload : (continuation bits).toNat - 0x80 = bits % 64 := by
    rw [toNat_continuation]
    omega
  rw [decodeFrom, if_pos (continuation_between hlow hhigh), hpayload]

/-- The last continuation byte completes the character. -/
theorem decodeFrom_last {low high : UInt8} {bits : Nat} (hlow : low.toNat ≤ bits % 64 + 128)
    (hhigh : bits % 64 + 128 ≤ high.toNat) (seen code start : Nat) (rest : Bytes) :
    decodeFrom (.inside seen 0 low high code) start (continuation bits :: rest) =
      (decodeFrom .between (start + seen + 1) rest).map
        (Char.ofNat (64 * code + bits % 64) :: ·) := by
  have hpayload : (continuation bits).toNat - 0x80 = bits % 64 := by
    rw [toNat_continuation]
    omega
  rw [decodeFrom, if_pos (continuation_between hlow hhigh), hpayload]

/-- The bounds on a continuation byte that nothing else narrows. -/
theorem continuation_bounds (bits : Nat) :
    (0x80 : UInt8).toNat ≤ bits % 64 + 128 ∧ bits % 64 + 128 ≤ (0xBF : UInt8).toNat := by
  have h : bits % 64 < 64 := Nat.mod_lt _ (by decide)
  exact ⟨Nat.le_add_left .., by show _ ≤ 191; omega⟩

/-- The first byte of three narrows the second, against overlong spellings and surrogates. -/
theorem continuation_bounds_of_three {n : Nat}
    (h : 0x800 ≤ n ∧ n < 0x10000 ∧ ¬(0xD800 ≤ n ∧ n < 0xE000)) :
    (if n / 4096 = 0 then 0xA0 else 0x80 : UInt8).toNat ≤ n / 64 % 64 + 128 ∧
      n / 64 % 64 + 128 ≤ (if n / 4096 = 13 then 0x9F else 0xBF : UInt8).toNat := by
  constructor
  · split
    · show 160 ≤ _
      omega
    · exact Nat.le_add_left ..
  · split
    · show _ ≤ 159
      omega
    · show _ ≤ 191
      omega

/-- The first byte of four does so too, against numbers past the last character. -/
theorem continuation_bounds_of_four {n : Nat} (h : 0x10000 ≤ n ∧ n < 0x110000) :
    (if n / 262144 = 0 then 0x90 else 0x80 : UInt8).toNat ≤ n / 4096 % 64 + 128 ∧
      n / 4096 % 64 + 128 ≤ (if n / 262144 = 4 then 0x8F else 0xBF : UInt8).toNat := by
  constructor
  · split
    · show 144 ≤ _
      omega
    · exact Nat.le_add_left ..
  · split
    · show _ ≤ 143
      omega
    · show _ ≤ 191
      omega

/-- The checking reader takes the bytes of a character off the front. -/
theorem decodeFrom_utf8EncodeChar (c : Char) (start : Nat) (rest : Bytes) :
    decodeFrom .between start (String.utf8EncodeChar c ++ rest) =
      (decodeFrom .between (start + (String.utf8EncodeChar c).length) rest).map (c :: ·) := by
  rcases utf8EncodeChar_cases c with ⟨h, heq⟩ | ⟨h, heq⟩ | ⟨h, heq⟩ | ⟨h, heq⟩ <;>
    simp only [heq, List.cons_append, List.nil_append, List.length_cons, List.length_nil]
  · have htoNat : (UInt8.ofNat c.toNat).toNat = c.toNat :=
      UInt8.toNat_ofNat_of_lt' (Nat.lt_trans h (by decide))
    have hlt : UInt8.ofNat c.toNat < 0x80 := UInt8.lt_iff_toNat_lt.mpr (by rw [htoNat]; exact h)
    rw [decodeFrom, if_pos hlt, htoNat, Char.ofNat_toNat]
  · have ⟨hlow, hhigh⟩ := continuation_bounds c.toNat
    rw [decodeFrom_lead (afterLead_two _ (by omega) (by omega)), decodeFrom_last hlow hhigh,
      show 64 * (c.toNat / 64) + c.toNat % 64 = c.toNat by omega, Char.ofNat_toNat]
  · have ⟨hlow, hhigh⟩ := continuation_bounds c.toNat
    have ⟨hlow', hhigh'⟩ := continuation_bounds_of_three h
    rw [decodeFrom_lead (afterLead_three _ (by omega)), decodeFrom_inside hlow' hhigh',
      decodeFrom_last hlow hhigh,
      show 64 * (64 * (c.toNat / 4096) + c.toNat / 64 % 64) + c.toNat % 64 = c.toNat by omega,
      Char.ofNat_toNat]
  · have ⟨hlow, hhigh⟩ := continuation_bounds c.toNat
    have ⟨hlow', hhigh'⟩ := continuation_bounds (c.toNat / 64)
    have ⟨hlow'', hhigh''⟩ := continuation_bounds_of_four h
    rw [decodeFrom_lead (afterLead_four _ (by omega)), decodeFrom_inside hlow'' hhigh'',
      decodeFrom_inside hlow' hhigh', decodeFrom_last hlow hhigh,
      show 64 * (64 * (64 * (c.toNat / 262144) + c.toNat / 4096 % 64) + c.toNat / 64 % 64) +
        c.toNat % 64 = c.toNat by omega,
      Char.ofNat_toNat]

theorem decodeFrom_encodeChars (cs : List Char) (start : Nat) :
    decodeFrom .between start (encodeChars cs) = .ok cs := by
  induction cs generalizing start with
  | nil => rw [encodeChars_nil, decodeFrom]
  | cons c cs ih =>
    rw [encodeChars_cons, decodeFrom_utf8EncodeChar, ih]
    rfl

/-- **A text is read back from its bytes**, every byte checked. -/
theorem decode_encode (s : String) : decode (encode s) = .ok s := by
  rw [decode, decodeChars, encode, decodeFrom_encodeChars]
  exact congrArg Except.ok String.ofList_toList

/-! ## Reading without checks -/

theorem payload_continuation (bits : Nat) : payload (continuation bits) = bits % 64 := by
  rw [payload, toNat_continuation]
  omega

variable {a : UInt8} (rest : Bytes)

theorem not_lt_of_le {bound : UInt8} (h : bound.toNat ≤ a.toNat) : ¬a < bound :=
  UInt8.not_lt.mpr (UInt8.le_iff_toNat_le.mpr h)

theorem decodeTrusted_one (h : a.toNat < 0x80) :
    decodeTrusted (a :: rest) = Char.ofNat a.toNat :: decodeTrusted rest := by
  conv => lhs; unfold decodeTrusted
  exact if_pos (UInt8.lt_iff_toNat_lt.mpr h)

theorem decodeTrusted_two (b : UInt8) (h : 0x80 ≤ a.toNat) (h' : a.toNat < 0xE0) :
    decodeTrusted (a :: b :: rest) =
      Char.ofNat (64 * (a.toNat % 32) + payload b) :: decodeTrusted rest := by
  have h₁ : ¬a < 0x80 := not_lt_of_le h
  conv => lhs; unfold decodeTrusted
  simp only [if_neg h₁]
  exact if_pos (UInt8.lt_iff_toNat_lt.mpr h')

theorem decodeTrusted_three (b c : UInt8) (h : 0xE0 ≤ a.toNat) (h' : a.toNat < 0xF0) :
    decodeTrusted (a :: b :: c :: rest) =
      Char.ofNat (4096 * (a.toNat % 16) + 64 * payload b + payload c) :: decodeTrusted rest := by
  have h₁ : ¬a < 0x80 := not_lt_of_le (Nat.le_trans (by decide) h)
  have h₂ : ¬a < 0xE0 := not_lt_of_le h
  conv => lhs; unfold decodeTrusted
  simp only [if_neg h₁, if_neg h₂]
  exact if_pos (UInt8.lt_iff_toNat_lt.mpr h')

theorem decodeTrusted_four (b c d : UInt8) (h : 0xF0 ≤ a.toNat) :
    decodeTrusted (a :: b :: c :: d :: rest) =
      Char.ofNat (262144 * (a.toNat % 8) + 4096 * payload b + 64 * payload c + payload d) ::
        decodeTrusted rest := by
  have h₁ : ¬a < 0x80 := not_lt_of_le (Nat.le_trans (by decide) h)
  have h₂ : ¬a < 0xE0 := not_lt_of_le (Nat.le_trans (by decide) h)
  have h₃ : ¬a < 0xF0 := not_lt_of_le h
  conv => lhs; unfold decodeTrusted
  simp only [if_neg h₁, if_neg h₂, if_neg h₃]

/-- The trusting reader takes the bytes of a character off the front. -/
theorem decodeTrusted_utf8EncodeChar (c : Char) :
    decodeTrusted (String.utf8EncodeChar c ++ rest) = c :: decodeTrusted rest := by
  have htoNat : ∀ {n}, n < 256 → (UInt8.ofNat n).toNat = n := UInt8.toNat_ofNat_of_lt'
  rcases utf8EncodeChar_cases c with ⟨h, heq⟩ | ⟨h, heq⟩ | ⟨h, heq⟩ | ⟨h, heq⟩ <;>
    simp only [heq, List.cons_append, List.nil_append]
  · have hlead := htoNat (show c.toNat < 256 by omega)
    rw [decodeTrusted_one rest (by omega), hlead, Char.ofNat_toNat]
  · have hlead := htoNat (show c.toNat / 64 + 0xC0 < 256 by omega)
    rw [decodeTrusted_two rest _ (by omega) (by omega), hlead, payload_continuation,
      show 64 * ((c.toNat / 64 + 0xC0) % 32) + c.toNat % 64 = c.toNat by omega,
      Char.ofNat_toNat]
  · have hlead := htoNat (show c.toNat / 4096 + 0xE0 < 256 by omega)
    rw [decodeTrusted_three rest _ _ (by omega) (by omega), hlead, payload_continuation,
      payload_continuation,
      show 4096 * ((c.toNat / 4096 + 0xE0) % 16) + 64 * (c.toNat / 64 % 64) + c.toNat % 64 =
        c.toNat by omega,
      Char.ofNat_toNat]
  · have hlead := htoNat (show c.toNat / 262144 + 0xF0 < 256 by omega)
    rw [decodeTrusted_four rest _ _ _ (by omega), hlead, payload_continuation,
      payload_continuation, payload_continuation,
      show 262144 * ((c.toNat / 262144 + 0xF0) % 8) + 4096 * (c.toNat / 4096 % 64) +
        64 * (c.toNat / 64 % 64) + c.toNat % 64 = c.toNat by omega,
      Char.ofNat_toNat]

/-- **The characters of a text are read back from its bytes** without looking for faults. -/
theorem decodeTrusted_encodeChars (cs : List Char) : decodeTrusted (encodeChars cs) = cs := by
  induction cs with
  | nil => rw [encodeChars_nil, decodeTrusted]
  | cons c cs ih => rw [encodeChars_cons, decodeTrusted_utf8EncodeChar, ih]

/-! ## Texts in pieces -/

/-- The bytes of a text. -/
def IsText (s : Bytes) : Prop := ∃ cs, s = encodeChars cs

theorem isText_encode (s : String) : IsText (encode s) := ⟨s.toList, rfl⟩

theorem isText_nil : IsText [] := ⟨[], rfl⟩

theorem IsText.append {s t : Bytes} (hs : IsText s) (ht : IsText t) : IsText (s ++ t) := by
  obtain ⟨cs, rfl⟩ := hs
  obtain ⟨ds, rfl⟩ := ht
  exact ⟨cs ++ ds, (encodeChars_append cs ds).symm⟩

theorem isText_utf8EncodeChar (c : Char) : IsText (String.utf8EncodeChar c) :=
  ⟨[c], by simp⟩

/-- An ASCII byte is the whole of the character it belongs to. -/
theorem utf8EncodeChar_eq_singleton_of_mem {c : Char} {d : UInt8} (hd : d < 0x80)
    (hmem : d ∈ String.utf8EncodeChar c) : String.utf8EncodeChar c = [d] := by
  rcases utf8EncodeChar_cases c with ⟨_, heq⟩ | ⟨⟨h, _⟩, _⟩ | ⟨⟨h, _⟩, _⟩ | ⟨⟨h, _⟩, _⟩
  · rw [heq] at hmem ⊢
    rw [List.mem_singleton.mp hmem]
  all_goals exact absurd hd (UInt8.not_lt.mpr (le_of_mem_utf8EncodeChar (by omega) hmem))

/-- **A text that is cut at an ASCII byte** is a text on either side of it. -/
theorem IsText.of_cut {s t : Bytes} {d : UInt8} (hd : d < 0x80) (h : IsText (s ++ d :: t)) :
    IsText s ∧ IsText t := by
  obtain ⟨cs, h⟩ := h
  induction cs generalizing s with
  | nil => exact absurd h (by simp)
  | cons c cs ih =>
    rw [encodeChars_cons] at h
    rcases List.append_eq_append_iff.mp h with ⟨front, hchar, hcut⟩ | ⟨front, rfl, hrest⟩
    · cases front with
      | nil =>
        rw [List.append_nil] at hchar
        obtain ⟨-, ht⟩ := ih (s := []) hcut
        exact ⟨hchar ▸ isText_utf8EncodeChar c, ht⟩
      | cons b front =>
        obtain ⟨rfl, rfl⟩ := List.cons.inj hcut
        have hwhole := utf8EncodeChar_eq_singleton_of_mem hd (c := c) (by simp [hchar])
        rw [hwhole, List.singleton_eq_append_iff] at hchar
        rcases hchar with ⟨rfl, hfront⟩ | ⟨-, hfront⟩
        · obtain ⟨-, rfl⟩ := List.cons.inj hfront
          exact ⟨isText_nil, cs, rfl⟩
        · cases hfront
    · obtain ⟨hs, ht⟩ := ih hrest.symm
      exact ⟨(isText_utf8EncodeChar c).append hs, ht⟩

theorem IsText.of_ascii_append {s t : Bytes} (hs : ∀ b ∈ s, b < 0x80) (h : IsText (s ++ t)) :
    IsText t := by
  induction s with
  | nil => exact h
  | cons b s ih =>
    obtain ⟨hb, hs⟩ := List.forall_mem_cons.mp hs
    exact ih hs (h.of_cut (s := []) hb).2

/-- What can be left of a text: the bytes behind some of it. -/
def IsTail (s : Bytes) : Prop := ∃ front, IsText (front ++ s)

theorem IsText.isTail {s : Bytes} (h : IsText s) : IsTail s := ⟨[], h⟩

theorem IsTail.of_append {s t : Bytes} (h : IsTail (s ++ t)) : IsTail t := by
  obtain ⟨front, h⟩ := h
  exact ⟨front ++ s, by rwa [List.append_assoc]⟩

theorem IsTail.of_suffix {s t : Bytes} (h : IsTail s) (hsuffix : t <:+ s) : IsTail t := by
  obtain ⟨front, rfl⟩ := hsuffix
  exact h.of_append

/-- What is left behind an ASCII byte of a text is a text. -/
theorem IsTail.isText {d : UInt8} {s : Bytes} (h : IsTail (d :: s)) (hd : d < 0x80) : IsText s := by
  obtain ⟨front, h⟩ := h
  exact (h.of_cut hd).2

theorem IsText.decode_eq {s : Bytes} (h : IsText s) :
    decode s = .ok (String.ofList (decodeTrusted s)) := by
  obtain ⟨cs, rfl⟩ := h
  have hdecode := decode_encode (String.ofList cs)
  rw [encode, String.toList_ofList] at hdecode
  rw [decodeTrusted_encodeChars, hdecode]

end Strongbox.Text.Utf8
