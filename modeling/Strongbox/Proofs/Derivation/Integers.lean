import Strongbox.Proofs.Derivation.Forms
import Strongbox.Proofs.Json.Limits

/-!
# Spellings of whole numbers

A number of properties is given as a number or as a string, and both are told by their digits: a
number as it is written, a string behind its blanks, its sign and its zeros. What has no such digits
is refused, and for what it is refused depends on the kind of the value alone, unless it exceeds the
limits of the reader.

## Main definitions

* `Json.Denotes`: a value that is a whole number, as a number or as a string
* `Json.IsOther`: a value that is neither `null` nor a whole number nor a string
* `Json.Judged`: what a value is taken for
* `Properties.NumberPart`: the parts of properties that are numbers

## Main results

* `Json.isDecimal_of_spelledNatural?`: what is taken for a whole number spells it
* `Json.exists_of_number_natural`: what is read as a whole number is written with its digits
* `Json.judged`: every value is judged by what it is
* `Properties.judge_otherwise`: a value for a number of properties
-/

namespace Strongbox.Json

open Text (isBlank)
open Text.Utf8 (encode)

/-! ## Digits -/

theorem exists_digitChar {c : Char} (h : c.isDigit) : ∃ d < 10, Nat.digitChar d = c := by
  obtain ⟨hlow, hhigh⟩ := Char.isDigit_iff_toNat.mp h
  have hzero : '0'.toNat = 48 := rfl
  have hnine : '9'.toNat = 57 := rfl
  refine ⟨c.toNat - 48, by omega, ?_⟩
  apply Char.toNat_inj.mp
  rw [Nat.toNat_digitChar_of_lt_ten (by omega)]
  omega

/-- Digits behind those of a number go on with it. -/
theorem toDigits_append {n : Nat} (hn : 0 < n) {cs : List Char} (h : ∀ c ∈ cs, c.isDigit) :
    Nat.toDigits 10 n ++ cs = Nat.toDigits 10 (Nat.ofDigitChars 10 cs n) := by
  induction cs generalizing n with
  | nil => rw [Nat.ofDigitChars_nil, List.append_nil]
  | cons c cs ih =>
    obtain ⟨hc, hcs⟩ := List.forall_mem_cons.mp h
    obtain ⟨d, hd, rfl⟩ := exists_digitChar hc
    calc Nat.toDigits 10 n ++ Nat.digitChar d :: cs
        = Nat.toDigits 10 n ++ Nat.toDigits 10 d ++ cs := by
          rw [Nat.toDigits_of_lt_base hd, List.append_assoc, List.singleton_append]
      _ = Nat.toDigits 10 (10 * n + d) ++ cs := by
          rw [Nat.toDigits_append_toDigits (by decide) hn hd]
      _ = Nat.toDigits 10 (Nat.ofDigitChars 10 cs (10 * n + d)) := ih (by omega) hcs
      _ = Nat.toDigits 10 (Nat.ofDigitChars 10 (Nat.digitChar d :: cs) n) := by
          rw [Nat.ofDigitChars_cons_digitChar_of_lt_ten hd]

/-- **Digits are those of the number they write**, with zeros in front. -/
theorem exists_zeros {cs : List Char} (hne : cs ≠ []) (h : ∀ c ∈ cs, c.isDigit) :
    ∃ zeros, cs = List.replicate zeros '0' ++ Nat.toDigits 10 (Nat.ofDigitChars 10 cs 0) := by
  induction cs with
  | nil => exact absurd rfl hne
  | cons c cs ih =>
    obtain ⟨hc, hcs⟩ := List.forall_mem_cons.mp h
    obtain ⟨d, hd, rfl⟩ := exists_digitChar hc
    rw [Nat.ofDigitChars_cons_digitChar_of_lt_ten hd, Nat.mul_zero, Nat.zero_add]
    rcases Nat.eq_zero_or_pos d with rfl | hpos
    · rcases eq_or_ne cs [] with rfl | hne
      · exact ⟨0, rfl⟩
      · obtain ⟨zeros, heq⟩ := ih hne hcs
        exact ⟨zeros + 1, congrArg (List.cons '0') heq⟩
    · refine ⟨0, ?_⟩
      rw [← toDigits_append hpos hcs, Nat.toDigits_of_lt_base hd]
      rfl

/-- A sign, if there is one, and what comes after it. -/
theorem exists_sign (cs : List Char) : ∃ sign, (sign = [] ∨ sign = ['+']) ∧
    cs = sign ++ if cs.head? = some '+' then cs.tail else cs := by
  by_cases hhead : cs.head? = some '+'
  · obtain ⟨cs, rfl⟩ := List.head?_eq_some_iff.mp hhead
    exact ⟨['+'], .inr rfl, rfl⟩
  · exact ⟨[], .inl rfl, by rw [if_neg hhead, List.nil_append]⟩

/-- **What is taken for a whole number spells it.** -/
theorem isDecimal_of_spelledNatural? {s : String} {n : Nat} (h : spelledNatural? s = some n) :
    IsDecimal n s ∧ n < UInt64.size := by
  obtain ⟨before, after, hbefore, hafter, hs⟩ := Text.exists_trimChars s.toList
  obtain ⟨sign, hsign, htrim⟩ := exists_sign (Text.trimChars s.toList)
  simp only [spelledNatural?] at h
  generalize (if (Text.trimChars s.toList).head? = some '+' then (Text.trimChars s.toList).tail
    else Text.trimChars s.toList) = ds at h htrim
  split at h
  · next hdigits =>
    split at h
    · next hsize =>
      cases h
      obtain ⟨zeros, hzeros⟩ := exists_zeros hdigits.1 (List.all_eq_true.mp hdigits.2)
      rw [Nat.ofDigitChars_eq_foldl] at hzeros
      refine ⟨⟨before, sign, zeros, after, hbefore, hsign, hafter, ?_⟩, hsize⟩
      rw [← hzeros, ← htrim]
      exact hs
    · cases h
  · cases h

/-! ## Numbers -/

/-- A digit among bytes is one among characters. -/
theorem isDigit_ofUInt8 {b : UInt8} (h : isDigit b = true) : (Char.ofUInt8 b).isDigit := by
  rw [isDigit, Bool.and_eq_true, decide_eq_true_eq, decide_eq_true_eq, UInt8.le_iff_toNat_le,
    UInt8.le_iff_toNat_le] at h
  exact Char.isDigit_iff_toNat.mpr h

/-- **Digits without a zero in front are those of the number they write.** -/
theorem IsWhole.eq_digitBytes {whole : Bytes} (h : IsWhole whole) :
    whole = digitBytes (decimal whole) := by
  cases h with
  | zero => decide
  | @digits b ds hb h =>
    obtain ⟨cs, hcs, heq⟩ : ∃ cs : List Char, (∀ c ∈ cs, c.isDigit) ∧
        b :: ds = cs.map Char.toUInt8 := by
      refine ⟨(b :: ds).map Char.ofUInt8, ?_, ?_⟩
      · intro c hc
        obtain ⟨b', hb', rfl⟩ := List.mem_map.mp hc
        exact isDigit_ofUInt8 (h.2 b' hb')
      · rw [List.map_map]
        exact (List.map_id'' (fun b' => UInt8.toUInt8_toUInt32 b') _).symm
    have hne : cs ≠ [] := by
      rintro rfl
      cases heq
    obtain ⟨zeros, hzeros⟩ := exists_zeros hne hcs
    rw [heq, decimal_map hcs, digitBytes]
    cases zeros with
    | zero => exact congrArg (List.map Char.toUInt8) hzeros
    | succ zeros =>
      rw [hzeros] at heq
      exact absurd (List.cons.inj heq).1 hb

/-- A number that is kept as a whole one has digits and nothing else. -/
theorem eq_of_value_natural {numeral : Numeral} {n : Nat} (h : numeral.value = .ok (.natural n)) :
    numeral = ⟨false, numeral.whole, none, none⟩ ∧ decimal numeral.whole = n ∧
      n < UInt64.size := by
  obtain ⟨negative, whole, fraction, exponent⟩ := numeral
  unfold Numeral.value at h
  dsimp only at h
  split at h
  · next hnone =>
    rw [Bool.and_eq_true, Option.isNone_iff_eq_none, Option.isNone_iff_eq_none] at hnone
    obtain ⟨rfl, rfl⟩ := hnone
    split at h
    · next hsize =>
      rw [Bool.and_eq_true, Bool.not_eq_true', decide_eq_true_eq] at hsize
      obtain ⟨rfl, hsize⟩ := hsize
      cases h
      exact ⟨rfl, rfl, hsize⟩
    split at h
    · cases h
    · obtain ⟨_, -, heq⟩ := map_eq_ok_iff.mp h
      cases heq
  · obtain ⟨_, -, heq⟩ := map_eq_ok_iff.mp h
    cases heq

theorem eq_of_fractionDigits_none {atEnd : Fault} {s rest : Bytes}
    (h : fractionDigits atEnd s = .ok (none, rest)) : s = rest := by
  rw [fractionDigits.eq_def] at h
  split at h
  · obtain ⟨_, -, heq⟩ := map_eq_ok_iff.mp h
    cases heq
  · cases h
    rfl

theorem eq_of_exponentDigits_none {atEnd : Fault} {s rest : Bytes}
    (h : exponentDigits atEnd s = .ok (none, rest)) : s = rest := by
  rw [exponentDigits.eq_def] at h
  split at h
  · cases h
    rfl
  split at h
  · obtain ⟨_, -, heq⟩ := map_eq_ok_iff.mp h
    cases heq
  · cases h
    rfl

theorem eq_of_minusSign_false {s : Bytes} (h : (minusSign s).1 = false) : (minusSign s).2 = s := by
  rw [minusSign.eq_def] at h ⊢
  split at h
  · cases h
  · rfl

/-- **What is read as a whole number is written with its digits.** -/
theorem exists_of_number_natural {s rest : Bytes} {n : Nat}
    (h : number s = .ok (.natural n, rest)) : n < UInt64.size ∧ s = digitBytes n ++ rest := by
  obtain ⟨⟨found, _⟩, hnumeral, h⟩ := bind_eq_ok_iff.mp h
  obtain ⟨value, hvalue, heq⟩ := bind_eq_ok_iff.mp h
  cases heq
  obtain ⟨hfound, hdecimal, hsize⟩ := eq_of_value_natural hvalue
  simp only [numeral, unsignedNumeral, bind_eq_ok_iff] at hnumeral
  obtain ⟨⟨whole, _⟩, hwhole, ⟨fraction, _⟩, hfraction, ⟨exponent, _⟩, hexponent, heq⟩ := hnumeral
  cases heq
  obtain ⟨hnegative, -, hnone, hnone'⟩ := Numeral.mk.inj hfound
  dsimp only at hnone hnone' hfraction hexponent hdecimal
  subst hnone hnone' hdecimal
  obtain ⟨hisWhole, heq⟩ := exists_of_wholeDigits hwhole
  rw [eq_of_minusSign_false hnegative, eq_of_fractionDigits_none hfraction,
    eq_of_exponentDigits_none hexponent] at heq
  rw [← hisWhole.eq_digitBytes]
  exact ⟨hsize, heq⟩

/-! ## Values of numbers -/

/-- A value that is a whole number, or a string that spells one. -/
def Denotes (n : Nat) (value : Bytes) : Prop :=
  value = digitBytes n ∨ ∃ s, IsDecimal n s ∧ IsString s value

/-- A value that is neither `null` nor a string, nor a whole number below `2 ^ 64`. -/
def IsOther (value : Bytes) : Prop :=
  value ≠ encode "null" ∧ (∀ s, ¬IsString s value) ∧ ∀ n < UInt64.size, value ≠ digitBytes n

/-- What a value is taken for where a number is due that may be missing: `tree` is the value without
its white space, and `room` is how many brackets may be open in it. -/
structure Judged (room : Nat) (tree : Tree) (value : Bytes)
    (outcome : Except Fault (Option UInt32)) : Prop where
  /-- The number is missing for `null`, and for nothing else. -/
  absent : outcome = .ok none ↔ value = encode "null"
  /-- The number is what the value denotes. -/
  present : ∀ n : UInt32, outcome = .ok (some n) ↔ Denotes n.toNat value
  /-- A value that denotes a number of more than 32 bits is out of range. -/
  outOfRange : ∀ n, outcome = .error (.integerOutOfRange n) ↔
    Denotes n value ∧ UInt32.size ≤ n ∧ n < UInt64.size
  /-- Every other string is no integer. -/
  invalid : ∀ s, outcome = .error (.invalidInteger s) ↔
    IsString s value ∧ ∀ n < UInt64.size, ¬IsDecimal n s
  /-- Every other value is neither a number nor a string, if it is within limits. -/
  neither : outcome = .error .neitherNumberNorString ↔
    IsOther value ∧ tree.depth ≤ room ∧ ∀ number ∈ tree.numbers, ¬TooLarge number
  /-- If it is not, it is refused for the limit it exceeds. -/
  limits : IsOther value → ¬(tree.depth ≤ room ∧ ∀ number ∈ tree.numbers, ¬TooLarge number) →
    (outcome = .error .recursionLimit ∧ room < tree.depth) ∨
      (outcome = .error .numberOutOfRange ∧ ∃ number ∈ tree.numbers, TooLarge number)

section

variable (source : Source) (room : Nat) {value : Bytes}

theorem judge_wholeNumber_string {s : String} (h : IsString s value) :
    judge (wholeNumber source room) value = ofSpelling s := by
  obtain ⟨raw, hraw, rfl⟩ := h
  have hjudge : judge (wholeNumber source room) (quote :: (raw ++ [quote])) =
      (judge (text source) (raw ++ [quote])).bind ofSpelling :=
    judge_of_forall fun _ rest hspace _ => wholeNumber_string room hraw.isContents hspace rest
  rw [hjudge, judge_text source hraw]
  rfl

theorem judge_wholeNumber_number (h : IsNumber value) :
    judge (wholeNumber source room) value = (judge number value).bind ofNumber :=
  judge_of_forall fun _ _ hspace hrest => wholeNumber_number room h hspace hrest

/-- A value that is walked over is refused, if there is nothing else wrong with it. -/
theorem exists_limited_of_other {tree : Tree} {b : UInt8} {tail : Bytes}
    (h : Written tree (b :: tail)) (htexts : AreTexts tree.strings) (hquote : b ≠ quote)
    (hnumber : ¬(b = minus ∨ isDigit b = true)) :
    ∃ limit, Limited room tree.depth tree.numbers limit ∧
      judge (wholeNumber source room) (b :: tail) =
        limit.bind fun _ => .error .neitherNumberNorString := by
  have hlimited : Limited room (([] : List Bracket).length + tree.depth) tree.numbers
      (tree.check (.strict source room) []) := h.check_strict htexts (Nat.zero_le room)
  rw [List.length_nil, Nat.zero_add] at hlimited
  refine ⟨_, hlimited, judge_of_forall fun space rest hspace hrest => ?_⟩
  rw [wholeNumber_other room h hquote hnumber hspace hrest]
  cases tree.check (.strict source room) [] <;> rfl

/-- A value that denotes a whole number of 64 bits is judged to be it. -/
theorem Denotes.judge_wholeNumber {n : Nat} (h : Denotes n value) (hn : n < UInt64.size) :
    judge (wholeNumber source room) value = .ok n := by
  rcases h with rfl | ⟨s, hs, hstring⟩
  · have hnumber := number_digitBytes hn (Blank.closes .nil)
    rw [List.append_nil] at hnumber
    rw [judge_wholeNumber_number source room (isNumber_digitBytes n), judge, hnumber]
    rfl
  · rw [judge_wholeNumber_string source room hstring, ofSpelling,
      spelledNatural?_of_isDecimal hs hn]

/-- Every other value is walked over, unless it is a number. -/
theorem IsOther.exists_limited {tree : Tree} (hother : IsOther value) (h : Written tree value)
    (htexts : AreTexts tree.strings) : ∃ limit, Limited room tree.depth tree.numbers limit ∧
      judge (wholeNumber source room) value =
        limit.bind fun _ => .error .neitherNumberNorString := by
  obtain ⟨hnull, hnotString, hnotWhole⟩ := hother
  cases h with
  | @word bytes hword =>
    have hwritten := Written.word hword
    rw [words_eq, List.mem_cons, List.mem_cons, List.mem_singleton] at hword
    rcases hword with rfl | rfl | rfl
    · exact absurd (by decide) hnull
    · exact exists_limited_of_other source room hwritten htexts (by decide) (by decide)
    · exact exists_limited_of_other source room hwritten htexts (by decide) (by decide)
  | @string raw hraw =>
    obtain ⟨cs, hcs⟩ := htexts raw List.mem_cons_self
    have hspells : SpellsText (String.ofList cs).toList raw := by rwa [String.toList_ofList]
    exact absurd ⟨raw, hspells, rfl⟩ (hnotString (String.ofList cs))
  | number hnumber =>
    rw [judge_wholeNumber_number source room hnumber, judge]
    rcases number_cases hnumber with hlarge | ⟨kept, hkept⟩
    · have herror : number value = .error .numberOutOfRange := hlarge
      exact ⟨_, .tooLarge List.mem_cons_self hlarge, by rw [herror]; rfl⟩
    · have hsmall : ¬TooLarge value := by
        intro hlarge
        cases hlarge.symm.trans hkept
      refine ⟨.ok (), .within (Nat.zero_le room) (List.forall_mem_singleton.mpr hsmall), ?_⟩
      rw [hkept]
      cases kept with
      | natural n =>
        obtain ⟨hn, heq⟩ := exists_of_number_natural hkept
        rw [List.append_nil] at heq
        exact absurd heq (hnotWhole n hn)
      | negative => rfl
      | fraction => rfl
  | @bracketed bracket items rest hitems =>
    apply exists_limited_of_other source room (.bracketed hitems) htexts
    · cases bracket <;> decide
    · cases bracket <;> decide

/-- The four ways to judge a value. -/
theorem value_cases (value : Bytes) : value = encode "null" ∨
    (∃ n < UInt64.size, Denotes n value) ∨
    (∃ s, IsString s value ∧ ∀ n < UInt64.size, ¬IsDecimal n s) ∨ IsOther value := by
  by_cases hnull : value = encode "null"
  · exact .inl hnull
  by_cases hdenotes : ∃ n < UInt64.size, Denotes n value
  · exact .inr (.inl hdenotes)
  by_cases hstring : ∃ s, IsString s value
  · obtain ⟨s, hs⟩ := hstring
    exact .inr (.inr (.inl ⟨s, hs, fun n hn h => hdenotes ⟨n, hn, .inr ⟨s, h, hs⟩⟩⟩))
  · exact .inr (.inr (.inr ⟨hnull, fun s hs => hstring ⟨s, hs⟩,
      fun n hn h => hdenotes ⟨n, hn, .inl h⟩⟩))

/-- A value that is not `null` is judged as a whole number of 32 bits. -/
theorem judge_part (h : IsValue value) (hne : value ≠ encode "null") :
    judge (nullable (natural source room)) value =
      ((judge (wholeNumber source room) value).bind ofWhole).map some := by
  rw [judge_nullable h hne, judge_natural]

theorem IsString.ne_null {s : String} (h : IsString s value) : value ≠ encode "null" := by
  obtain ⟨raw, -, rfl⟩ := h
  exact fun heq => absurd (List.cons.inj heq).1 (by decide)

theorem Denotes.ne_null {n : Nat} (h : Denotes n value) : value ≠ encode "null" := by
  rcases h with rfl | ⟨s, -, hs⟩
  · intro heq
    have hmem : (0x6E : UInt8) ∈ digitBytes n := heq ▸ (by decide : (0x6E : UInt8) ∈ encode "null")
    exact absurd (isDigit_of_mem_digitBytes hmem) (by decide)
  · exact hs.ne_null

theorem Denotes.judge_part {n : Nat} (hvalue : IsValue value) (h : Denotes n value)
    (hn : n < UInt64.size) :
    judge (nullable (natural source room)) value = (ofWhole n).map some := by
  rw [Json.judge_part source room hvalue h.ne_null, h.judge_wholeNumber source room hn]
  rfl

theorem IsString.judge_part {s : String} (hvalue : IsValue value) (h : IsString s value)
    (hnone : ∀ n < UInt64.size, ¬IsDecimal n s) :
    judge (nullable (natural source room)) value = .error (.invalidInteger s) := by
  have hspelling : spelledNatural? s = none := by
    by_contra hsome
    obtain ⟨n, hn⟩ := Option.ne_none_iff_exists'.mp hsome
    obtain ⟨hdecimal, hsize⟩ := isDecimal_of_spelledNatural? hn
    exact hnone n hsize hdecimal
  rw [Json.judge_part source room hvalue h.ne_null, judge_wholeNumber_string source room h,
    ofSpelling, hspelling]
  rfl

theorem IsOther.exists_judge_part {tree : Tree} (hother : IsOther value) (h : Written tree value)
    (htexts : AreTexts tree.strings) : ∃ limit, Limited room tree.depth tree.numbers limit ∧
      judge (nullable (natural source room)) value =
        limit.bind fun _ => .error .neitherNumberNorString := by
  obtain ⟨limit, hlimit, hjudge⟩ := hother.exists_limited source room h htexts
  refine ⟨limit, hlimit, ?_⟩
  rw [Json.judge_part source room h.isValue hother.1, hjudge]
  cases limit <;> rfl

theorem ofWhole_toNat (n : UInt32) : ofWhole n.toNat = .ok n := by
  rw [ofWhole, if_pos n.toNat_lt_size]
  exact congrArg Except.ok UInt32.ofNat_toNat

/-- The ways to judge a value, each with what it is judged for. -/
inductive Verdict (room : Nat) (tree : Tree) (value : Bytes) :
    Except Fault (Option UInt32) → Prop where
  | absent (h : value = encode "null") : Verdict room tree value (.ok none)
  | present {n : UInt32} (h : Denotes n.toNat value) : Verdict room tree value (.ok (some n))
  | outOfRange {n : Nat} (h : Denotes n value) (hlow : UInt32.size ≤ n) (hhigh : n < UInt64.size) :
    Verdict room tree value (.error (.integerOutOfRange n))
  | invalid {s : String} (h : IsString s value) (hnone : ∀ n < UInt64.size, ¬IsDecimal n s) :
    Verdict room tree value (.error (.invalidInteger s))
  | neither (h : IsOther value) (hdepth : tree.depth ≤ room)
    (hnumbers : ∀ number ∈ tree.numbers, ¬TooLarge number) :
    Verdict room tree value (.error .neitherNumberNorString)
  | tooDeep (h : IsOther value) (hdepth : room < tree.depth) :
    Verdict room tree value (.error .recursionLimit)
  | tooLarge {number : Bytes} (h : IsOther value) (hmem : number ∈ tree.numbers)
    (hlarge : TooLarge number) : Verdict room tree value (.error .numberOutOfRange)

/-- No value is judged in another way. -/
theorem verdict {tree : Tree} (h : Written tree value) (htexts : AreTexts tree.strings) :
    Verdict room tree value (judge (nullable (natural source room)) value) := by
  rcases value_cases value with rfl | ⟨n, hn, hdenotes⟩ | ⟨s, hs, hnone⟩ | hother
  · rw [judge_of_takes (takes_null _)]
    exact .absent rfl
  · rw [hdenotes.judge_part source room h.isValue hn]
    by_cases hsize : n < UInt32.size
    · obtain ⟨m, rfl⟩ : ∃ m : UInt32, m.toNat = n := ⟨n.toUInt32, UInt32.toNat_ofNat_of_lt' hsize⟩
      rw [ofWhole_toNat]
      exact .present hdenotes
    · rw [ofWhole, if_neg hsize]
      exact .outOfRange hdenotes (Nat.le_of_not_lt hsize) hn
  · rw [hs.judge_part source room h.isValue hnone]
    exact .invalid hs hnone
  · obtain ⟨limit, hlimit, hjudge⟩ := hother.exists_judge_part source room h htexts
    rw [hjudge]
    cases hlimit with
    | within hdepth hnumbers => exact .neither hother hdepth hnumbers
    | tooDeep hdepth => exact .tooDeep hother hdepth
    | tooLarge hmem hlarge => exact .tooLarge hother hmem hlarge

/-- **Every value is judged by what it is.** -/
theorem judged {tree : Tree} (h : Written tree value) (htexts : AreTexts tree.strings) :
    Judged room tree value (judge (nullable (natural source room)) value) := by
  have hverdict := verdict source room h htexts
  -- an outcome leaves one verdict that it can come from, and with that what the value is
  refine ⟨⟨?_, ?_⟩, fun n => ⟨?_, ?_⟩, fun n => ⟨?_, ?_⟩, fun s => ⟨?_, ?_⟩, ⟨?_, ?_⟩, ?_⟩
  · intro houtcome
    rw [houtcome] at hverdict
    cases hverdict with
    | absent h => exact h
  · rintro rfl
    exact judge_of_takes (takes_null _)
  · intro houtcome
    rw [houtcome] at hverdict
    cases hverdict with
    | present h => exact h
  · intro hdenotes
    have hsize : n.toNat < UInt64.size := Nat.lt_trans n.toNat_lt_size (by decide)
    rw [hdenotes.judge_part source room h.isValue hsize, ofWhole_toNat]
    rfl
  · intro houtcome
    rw [houtcome] at hverdict
    cases hverdict with
    | outOfRange h hlow hhigh => exact ⟨h, hlow, hhigh⟩
  · rintro ⟨hdenotes, hlow, hhigh⟩
    rw [hdenotes.judge_part source room h.isValue hhigh, ofWhole, if_neg (Nat.not_lt.mpr hlow)]
    rfl
  · intro houtcome
    rw [houtcome] at hverdict
    cases hverdict with
    | invalid h hnone => exact ⟨h, hnone⟩
  · rintro ⟨hs, hnone⟩
    exact hs.judge_part source room h.isValue hnone
  · intro houtcome
    rw [houtcome] at hverdict
    cases hverdict with
    | neither h hdepth hnumbers => exact ⟨h, hdepth, hnumbers⟩
  · rintro ⟨hother, hdepth, hnumbers⟩
    obtain ⟨limit, hlimit, hjudge⟩ := hother.exists_judge_part source room h htexts
    rw [hjudge]
    cases hlimit with
    | within => rfl
    | tooDeep hdeep => exact absurd hdepth (Nat.not_le.mpr hdeep)
    | tooLarge hmem hlarge => exact absurd hlarge (hnumbers _ hmem)
  · intro hother hlimits
    obtain ⟨limit, hlimit, hjudge⟩ := hother.exists_judge_part source room h htexts
    rw [hjudge]
    cases hlimit with
    | within hdepth hnumbers => exact absurd ⟨hdepth, hnumbers⟩ hlimits
    | tooDeep hdepth => exact .inl ⟨rfl, hdepth⟩
    | tooLarge hmem hlarge => exact .inr ⟨rfl, _, hmem, hlarge⟩

end

end Strongbox.Json

namespace Strongbox.Derivation.Properties

open Json
open Text.Utf8 (encode)

/-! ## Properties with a value for a number -/

/-- The parts that are numbers. -/
inductive NumberPart where
  | derivedKeyLength
  | iterations
  | blockSize
  | parallelization
deriving DecidableEq

namespace NumberPart

/-- The part that a number is. -/
def part : NumberPart → Part
  | derivedKeyLength => .derivedKeyLength
  | iterations => .iterations
  | blockSize => .blockSize
  | parallelization => .parallelization

/-- Properties with another number, or none. -/
def set : NumberPart → Properties → Option UInt32 → Properties
  | derivedKeyLength, p, value => { p with derivedKeyLength := value }
  | iterations, p, value => { p with iterations := value }
  | blockSize, p, value => { p with blockSize := value }
  | parallelization, p, value => { p with parallelization := value }

variable (i : NumberPart) {p : Properties} {value : Option UInt32}

/-- Every other part is as it was. -/
theorem shows_set {j : Part} (hj : j ≠ i.part) : (i.set p value).Shows j = p.Shows j := by
  cases i <;> cases j <;> first | rfl | exact absurd rfl hj

theorem due_set {j : Part} (hj : j ≠ i.part) : (i.set p value).Due j = p.Due j := by
  cases i <;> cases j <;> first | rfl | exact absurd rfl hj

theorem only_cons_part (seen : List Part) :
    (i.set p value).only (i.part :: seen) = i.set ((i.set p value).only seen) value := by
  cases i <;> simp [only, part, set]

/-- The field of a number stores it. -/
theorem read_field (source : Source) (room : Nat) (p : Properties) :
    (parts.field i.part).read source room p = fun s =>
      (nullable (natural source room) s).map fun (value, rest) => (i.set p value, rest) := by
  cases i <;> rfl

theorem judge_field (source : Source) (room : Nat) (p : Properties) (bytes : Bytes) :
    judge ((parts.field i.part).read source room p) bytes =
      (judge (nullable (natural source room)) bytes).map (i.set p) := by
  rw [i.read_field]
  exact judge_map (nullable (natural source room)) (i.set p) bytes

end NumberPart

/-- **A value for a number** makes of properties what it is judged to be. -/
theorem judge_otherwise (source : Source) (room : Nat) {p : Properties} {i : NumberPart}
    {value bytes : Bytes} (h : parts.GivesOtherwise p.Shows p.Due i.part value bytes)
    (hvalue : IsValue value) : judge (schema.read source (room + 1)) bytes =
      (judge (nullable (natural source room)) value).map (i.set p) := by
  have hfields := isLocal_fields source
  cases hjudge : judge (nullable (natural source room)) value with
  | error fault =>
    refine h.judge_eq_error hfields hasNames_schema p.only rfl
      (fun _ _ _ hshows => takes_part hshows) (fun _ hseen => only_of_due hseen) fun record => ?_
    rw [i.judge_field, hjudge]
    rfl
  | ok n =>
    refine h.judge_eq_ok hfields hasNames_schema (i.set p n).only rfl ?_ ?_ ?_
    · intro seen j hj bytes hshows
      rw [← i.shows_set hj] at hshows
      exact takes_part hshows
    · intro seen
      have htakes := ((isLocal_natural source room).nullable.takes hvalue hjudge).map
        (i.set ((i.set p n).only seen))
      rw [i.read_field, i.only_cons_part]
      exact htakes
    · intro seen hi hseen
      apply only_of_due
      intro j hdue
      by_cases hj : j = i.part
      · exact hj ▸ hi
      · rw [i.due_set hj] at hdue
        exact hseen j hj hdue

end Strongbox.Derivation.Properties
