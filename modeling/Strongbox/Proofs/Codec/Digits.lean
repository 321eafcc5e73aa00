import Strongbox.Proofs.Codec
import Strongbox.Proofs.Outcome
import Strongbox.Proofs.Text.Case
import Strongbox.Proofs.Text.Utf8

/-!
# Hexadecimal is read by its digits

A text is read as hexadecimal if it is digits in pairs, each in either case. What is written for the
bytes it is read as is the same text in lower case, so that two texts are read as the same bytes
if they differ in the case of digits and in nothing else. A text that is refused has an odd number
of bytes, or else a first byte that is no digit.

## Main definitions

* `Hex.digits`: the digits in either case, as bytes
* `Hex.InPairs`: digits and nothing else, in pairs

## Main results

* `Hex.decodeFrom_of_digits`: what digits in pairs are read as
* `Hex.decodeFrom_of_other`: a byte that is no digit is what is wrong with a text
* `Codec.hex_in_either_case`: which texts are read as hexadecimal, and which of them alike
-/

namespace Strongbox

open Text (SameButCase)

namespace Hex

/-! ## Digits -/

/-- The digits, those above nine in either case. -/
def digits : Bytes := "0123456789abcdefABCDEF".toList.map Char.toUInt8

/-- The character of an ASCII byte. -/
def character (b : UInt8) : Char := Char.ofNat b.toNat

/-- A byte has a value if it is a digit; the digit of that value is the same in lower case. -/
theorem value?_cases (b : UInt8) :
    (b ∈ digits ∧ b < 0x80 ∧ ∃ value < 16, value? b = some value ∧
      digit value = (character b).toLower) ∨
    (b ∉ digits ∧ value? b = none) := by
  have hall : ∀ n < 256, (UInt8.ofNat n ∈ digits ∧ UInt8.ofNat n < 0x80 ∧
      ∃ value < 16, value? (UInt8.ofNat n) = some value ∧
        digit value = (character (UInt8.ofNat n)).toLower) ∨
      (UInt8.ofNat n ∉ digits ∧ value? (UInt8.ofNat n) = none) := by
    decide +kernel
  have hb := hall b.toNat b.toNat_lt
  rwa [UInt8.ofNat_toNat] at hb

theorem digitAt_of_digit {b : UInt8} (h : b ∈ digits) (offset : Nat) :
    ∃ value < 16, digitAt offset b = .ok value ∧ digit value = (character b).toLower := by
  rcases value?_cases b with ⟨-, -, value, hlt, hvalue, hsame⟩ | ⟨hother, -⟩
  · refine ⟨value, hlt, ?_, hsame⟩
    rw [digitAt, hvalue]
  · exact absurd h hother

theorem digitAt_of_other {b : UInt8} (h : b ∉ digits) (offset : Nat) :
    digitAt offset b = .error (.badDigit b offset) := by
  rcases value?_cases b with ⟨hdigit, -⟩ | ⟨-, hvalue⟩
  · exact absurd hdigit h
  · rw [digitAt, hvalue]

theorem lt_of_mem_digits {b : UInt8} (h : b ∈ digits) : b < 0x80 := by
  rcases value?_cases b with ⟨-, hascii, -⟩ | ⟨hother, -⟩
  · exact hascii
  · exact absurd h hother

/-! ## Texts -/

theorem encode_injective : Function.Injective encode := by
  intro data data' h
  have hread := decode_encode data
  rw [h, decode_encode] at hread
  exact (Except.ok.inj hread).symm

/-- Digits and nothing else, in pairs. -/
def InPairs (text : Bytes) : Prop := text.length % 2 = 0 ∧ ∀ b ∈ text, b ∈ digits

/-- **Digits in pairs are read** as the bytes for which they are written, their case apart. -/
theorem decodeFrom_of_digits (offset : Nat) {text : Bytes} (h : InPairs text) :
    ∃ data, decodeFrom offset text = .ok data ∧
      encode data = (text.map character).map Char.toLower := by
  obtain ⟨heven, hdigits⟩ := h
  fun_induction decodeFrom offset text with
  | case1 => exact ⟨[], rfl, rfl⟩
  | case2 => simp at heven
  | case3 offset a b rest ih =>
    simp only [List.forall_mem_cons] at hdigits
    obtain ⟨ha, hb, hrest⟩ := hdigits
    obtain ⟨high, hhigh, hreadHigh, hsameHigh⟩ := digitAt_of_digit ha offset
    obtain ⟨low, hlow, hreadLow, hsameLow⟩ := digitAt_of_digit hb (offset + 1)
    have heven' : rest.length % 2 = 0 := by
      simp only [List.length_cons] at heven
      omega
    obtain ⟨data, hread, hencode⟩ := ih heven' hrest
    refine ⟨UInt8.ofNat (16 * high + low) :: data, ?_, ?_⟩
    · simp only [hreadHigh, hreadLow, hread, bind, Except.bind]
      rfl
    · have hbyte : (UInt8.ofNat (16 * high + low)).toNat = 16 * high + low :=
        UInt8.toNat_ofNat_of_lt' (show 16 * high + low < 256 by omega)
      have hhalf : (16 * high + low) / 16 = high := by omega
      have hhalf' : (16 * high + low) % 16 = low := by omega
      rw [encode_cons, pair, hbyte, hhalf, hhalf', hencode, hsameHigh, hsameLow]
      rfl

/-- **The first byte that is no digit** is what is wrong with bytes in pairs. -/
theorem decodeFrom_of_other {b : UInt8} (hb : b ∉ digits) (rest : Bytes) :
    ∀ (offset : Nat) {front : Bytes}, (∀ d ∈ front, d ∈ digits) →
      (front ++ b :: rest).length % 2 = 0 →
      decodeFrom offset (front ++ b :: rest) = .error (.badDigit b (offset + front.length))
  | offset, [], _, heven => by
    match rest with
    | [] => simp at heven
    | c :: rest =>
      rw [List.nil_append, decodeFrom, digitAt_of_other hb]
      rfl
  | offset, [a], hfront, _ => by
    obtain ⟨high, -, hhigh, -⟩ := digitAt_of_digit (hfront a List.mem_cons_self) offset
    rw [List.singleton_append, decodeFrom, hhigh, digitAt_of_other hb]
    rfl
  | offset, a :: c :: front, hfront, heven => by
    simp only [List.forall_mem_cons] at hfront
    obtain ⟨ha, hc, hfront⟩ := hfront
    obtain ⟨high, -, hhigh, -⟩ := digitAt_of_digit ha offset
    obtain ⟨low, -, hlow, -⟩ := digitAt_of_digit hc (offset + 1)
    have heven' : (front ++ b :: rest).length % 2 = 0 := by
      simp only [List.cons_append, List.length_cons] at heven
      omega
    have hrest := decodeFrom_of_other hb rest (offset + 2) hfront heven'
    rw [List.cons_append, List.cons_append, decodeFrom, hhigh, hlow, hrest]
    simp only [bind, Except.bind, List.length_cons]
    congr 2
    omega

/-- **How a text is read**: an odd length is told first, then the first byte that is no digit; what
is left are digits in pairs. -/
theorem decode_cases (text : Bytes) :
    (text.length % 2 = 1 ∧ decode text = .error .oddLength) ∨
    (text.length % 2 = 0 ∧ ∃ front b rest, text = front ++ b :: rest ∧
      (∀ d ∈ front, d ∈ digits) ∧ b ∉ digits ∧
      decode text = .error (.badDigit b front.length)) ∨
    (InPairs text ∧ ∃ data, decode text = .ok data ∧
      encode data = (text.map character).map Char.toLower) := by
  by_cases hodd : text.length % 2 = 1
  · exact .inl ⟨hodd, by rw [decode, if_pos hodd]⟩
  have heven : text.length % 2 = 0 := by omega
  have hread : decode text = decodeFrom 0 text := by rw [decode, if_neg hodd]
  right
  rw [hread]
  cases hfind : text.find? (· ∉ digits) with
  | none =>
    have hdigits : ∀ b ∈ text, b ∈ digits := by simpa using hfind
    exact .inr ⟨⟨heven, hdigits⟩, decodeFrom_of_digits 0 ⟨heven, hdigits⟩⟩
  | some b =>
    obtain ⟨hb, front, rest, rfl, hfront⟩ := List.find?_eq_some_iff_append.mp hfind
    have hother : b ∉ digits := by simpa using hb
    have hdigits : ∀ d ∈ front, d ∈ digits := by simpa using hfront
    have hfault := decodeFrom_of_other hother rest 0 hdigits heven
    rw [Nat.zero_add] at hfault
    exact .inl ⟨heven, front, b, rest, rfl, hdigits, hother, hfault⟩

/-- A text is read if it is digits in pairs, and gives the bytes for which it is written but for
the case. -/
theorem decode_eq_ok_iff {text data : Bytes} :
    decode text = .ok data ↔
      InPairs text ∧ encode data = (text.map character).map Char.toLower := by
  rcases decode_cases text with ⟨hodd, hdecode⟩ | ⟨-, front, b, rest, htext, -, hother, hdecode⟩ |
    ⟨hpairs, data', hdecode, hencode⟩
  · rw [hdecode]
    refine iff_of_false nofun fun h => ?_
    have heven := h.1.1
    omega
  · rw [hdecode]
    refine iff_of_false nofun fun h => ?_
    exact hother (h.1.2 b (by simp [htext]))
  · rw [hdecode, ← hencode]
    constructor
    · intro h
      obtain rfl := Except.ok.inj h
      exact ⟨hpairs, rfl⟩
    · rintro ⟨-, h⟩
      rw [encode_injective h]

theorem exists_decode_iff {text : Bytes} : (∃ data, decode text = .ok data) ↔ InPairs text := by
  constructor
  · rintro ⟨data, h⟩
    exact (decode_eq_ok_iff.mp h).1
  · intro h
    obtain ⟨data, -, hencode⟩ := decodeFrom_of_digits 0 h
    exact ⟨data, decode_eq_ok_iff.mpr ⟨h, hencode⟩⟩

/-! ## Characters -/

/-- The bytes of a text of ASCII bytes are those of its characters. -/
theorem map_character_encodeChars {cs : List Char}
    (h : ∀ b ∈ Text.Utf8.encodeChars cs, b < 0x80) :
    (Text.Utf8.encodeChars cs).map character = cs := by
  have hascii : ∀ c ∈ cs, c.toNat < 128 := fun c hc => Text.Utf8.toNat_lt_of_encodeChars h hc
  have hback : ∀ c ∈ cs, character c.toUInt8 = c := by
    intro c hc
    have htoNat : c.toUInt8.toNat = c.toNat := by
      show c.toNat % 256 = c.toNat
      exact Nat.mod_eq_of_lt (Nat.lt_trans (hascii c hc) (by decide))
    rw [character, htoNat, Char.ofNat_toNat]
  rw [Text.Utf8.encodeChars_of_ascii hascii, List.map_map]
  exact (List.map_congr_left hback).trans (List.map_id cs)

/-- The digits that are written are in lower case. -/
theorem map_toLower_encode (data : Bytes) : (encode data).map Char.toLower = encode data := by
  have hdigit : ∀ value < 16, (digit value).toLower = digit value := by decide
  have hsame : ∀ c ∈ encode data, c.toLower = c := by
    intro c hc
    obtain ⟨value, hvalue, rfl⟩ := exists_digit_of_mem_encode hc
    exact hdigit value hvalue
  exact (List.map_congr_left hsame).trans (List.map_id _)

/-- A digit in another case is a digit. -/
theorem mem_digits_of_recased {value : Nat} (h : value < 16) {c : Char}
    (hc : Text.Recased (digit value) c) : c.toNat < 128 ∧ c.toUInt8 ∈ digits := by
  have hlower : ∀ value < 16, (digit value).toLower.toNat < 128 ∧
      (digit value).toLower.toUInt8 ∈ digits := by decide
  have hupper : ∀ value < 16, (digit value).toUpper.toNat < 128 ∧
      (digit value).toUpper.toUInt8 ∈ digits := by decide
  rcases hc with rfl | rfl
  · exact hlower value h
  · exact hupper value h

/-- What is written is digits in pairs, in whatever case it is put. -/
theorem inPairs_of_sameButCase {data : Bytes} {cs : List Char} (h : SameButCase (encode data) cs) :
    InPairs (Text.Utf8.encodeChars cs) := by
  have hlower : cs.map Char.toLower = encode data := by
    rw [← map_toLower_encode data]
    exact (Text.sameButCase_iff_toLower.mp h).symm
  have hdigits : ∀ c ∈ cs, c.toNat < 128 ∧ c.toUInt8 ∈ digits := by
    intro c hc
    have hmem : c.toLower ∈ encode data := hlower ▸ List.mem_map_of_mem hc
    obtain ⟨value, hvalue, hsame⟩ := exists_digit_of_mem_encode hmem
    have hcase : Text.Recased c (digit value) := .inl hsame.symm
    exact mem_digits_of_recased hvalue hcase.symm
  rw [InPairs, Text.Utf8.encodeChars_of_ascii fun c hc => (hdigits c hc).1]
  constructor
  · have hlen : cs.length = 2 * data.length := by
      rw [← length_encode data, ← hlower, List.length_map]
    rw [List.length_map, hlen]
    omega
  · intro b hb
    obtain ⟨c, hc, rfl⟩ := List.mem_map.mp hb
    exact (hdigits c hc).2

/-- **A text is read as the bytes for which it is written in some case.** -/
theorem decode_encodeChars_eq_ok_iff {cs : List Char} {data : Bytes} :
    decode (Text.Utf8.encodeChars cs) = .ok data ↔ SameButCase (encode data) cs := by
  have hcharacters (h : InPairs (Text.Utf8.encodeChars cs)) :
      (Text.Utf8.encodeChars cs).map character = cs :=
    map_character_encodeChars fun b hb => lt_of_mem_digits (h.2 b hb)
  rw [decode_eq_ok_iff, Text.sameButCase_iff_toLower, map_toLower_encode]
  constructor
  · rintro ⟨hpairs, hencode⟩
    rwa [hcharacters hpairs] at hencode
  · intro hencode
    have hsame : SameButCase (encode data) cs :=
      Text.sameButCase_iff_toLower.mpr (by rwa [map_toLower_encode])
    have hpairs := inPairs_of_sameButCase hsame
    exact ⟨hpairs, by rwa [hcharacters hpairs]⟩

end Hex

/-! ## Texts as strings -/

namespace Codec

theorem decode_hex_eq_ok_iff {text : String} {data : Bytes} :
    Codec.hex.decode text = .ok data ↔ Hex.decode (Text.Utf8.encode text) = .ok data := by
  rw [decode, mapError_eq_ok_iff]

/-- **Hexadecimal is read in either case.** Every byte string is read back from its text, which
has two digits a byte, all of them in lower case. The texts that are read are digits in pairs, each
in either case; what is written for the bytes a text is read as is that text in lower case; and
two texts are read as the same bytes if they differ in the case of digits and in nothing else. -/
theorem hex_in_either_case :
    (∀ data : Bytes, Codec.hex.decode (Codec.hex.encode data) = .ok data ∧
      (Codec.hex.encode data).length = 2 * data.length ∧
      ∀ c ∈ (Codec.hex.encode data).toList, c ∈ "0123456789abcdef".toList) ∧
    (∀ text : String, (∃ data, Codec.hex.decode text = .ok data) ↔
      (Text.Utf8.encode text).length % 2 = 0 ∧ ∀ b ∈ Text.Utf8.encode text, b ∈ Hex.digits) ∧
    (∀ (text : String) (data : Bytes),
      Codec.hex.decode text = .ok data ↔ Codec.hex.encode data = text.toLower) ∧
    ∀ text text' : String,
      (∃ data, Codec.hex.decode text = .ok data ∧ Codec.hex.decode text' = .ok data) ↔
        (∃ data, Codec.hex.decode text = .ok data) ∧
          SameButCase text.toList text'.toList := by
  have hread (text : String) (data : Bytes) :
      Codec.hex.decode text = .ok data ↔ SameButCase (Hex.encode data) text.toList := by
    rw [decode_hex_eq_ok_iff, Text.Utf8.encode, Hex.decode_encodeChars_eq_ok_iff]
  refine ⟨fun data => ⟨decode_encode .hex data, ?_, ?_⟩, fun text => ?_, fun text data => ?_,
    fun text text' => ?_⟩
  · rw [encode, String.length_ofList, Hex.length_encode]
  · intro c hc
    have hdigit : ∀ value < 16, Hex.digit value ∈ "0123456789abcdef".toList := by decide
    rw [encode, String.toList_ofList] at hc
    obtain ⟨value, hvalue, rfl⟩ := Hex.exists_digit_of_mem_encode hc
    exact hdigit value hvalue
  · simp only [decode_hex_eq_ok_iff]
    exact Hex.exists_decode_iff
  · have hlower : text.toLower.toList = text.toList.map Char.toLower := String.toList_map
    rw [hread, Text.sameButCase_iff_toLower, Hex.map_toLower_encode, encode, ← String.toList_inj,
      String.toList_ofList, hlower]
  · simp only [hread, Text.sameButCase_iff_toLower]
    constructor
    · rintro ⟨data, h, h'⟩
      exact ⟨⟨data, h⟩, h.symm.trans h'⟩
    · rintro ⟨⟨data, h⟩, h'⟩
      exact ⟨data, h, h.trans h'⟩

/-- A text with letters of both cases is read like the one that is written. -/
theorem hex_in_either_case_of_mixed :
    Codec.hex.encode [0xE6, 0x9D] = "e69d" ∧ 'e' ∈ "0123456789abcdef".toList ∧
      Codec.hex.decode "E69d" = .ok [0xE6, 0x9D] ∧
      ∃ data, Codec.hex.decode "E69d" = .ok data ∧ Codec.hex.decode "e69D" = .ok data := by
  obtain ⟨hwritten, -, hlower, hsame⟩ := hex_in_either_case
  have hread : Codec.hex.decode "E69d" = .ok [0xE6, 0x9D] :=
    (hlower "E69d" [0xE6, 0x9D]).mpr (by decide +kernel)
  have hcase : SameButCase "E69d".toList "e69D".toList :=
    Text.sameButCase_iff_toLower.mpr (by decide)
  exact ⟨by decide, (hwritten [0xE6, 0x9D]).2.2 'e' (by decide), hread,
    (hsame "E69d" "e69D").mpr ⟨⟨_, hread⟩, hcase⟩⟩

end Codec

end Strongbox
