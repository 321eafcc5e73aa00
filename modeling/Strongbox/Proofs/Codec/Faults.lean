import Strongbox.Proofs.Codec.Canonical
import Strongbox.Proofs.Codec.Digits
import Strongbox.Proofs.Outcome

/-!
# Faults tell where a text is wrong

A text that is refused is refused for a byte that stands where the fault says and is what the fault
says, or else for its length. Groups of four are read one after the other and the last one is taken
apart from left to right, so that an offset is that of the group and the place in it.

## Main definitions

* `Base64.symbols`: the symbols in the order of their values, as bytes
* `Base64.Fault.Tells`: what a fault says of a text

## Main results

* `Base64.tells_of_scanTail`: what is found on the way through the last group
* `Base64.tells_of_tailBytes`: what is found of the unused bits
* `Base64.tells_of_decode`: every fault tells the truth
* `Codec.faults_point_at_bytes`: which byte is told, for both codecs
-/

namespace Strongbox

namespace Base64

/-! ## Symbols -/

/-- The symbols in the order of their values. -/
def symbols : Bytes := alphabet.map Char.toUInt8

theorem mem_symbols_iff {b : UInt8} : b ∈ symbols ↔ ∃ value < 64, (symbol value).toUInt8 = b := by
  rw [symbols, alphabet_eq, List.map_map]
  simp

theorem pad_not_mem_symbols : pad ∉ symbols := by
  decide +kernel

/-- The place of a symbol is its value. -/
theorem idxOf_toUInt8_symbol : ∀ value < 64, symbols.idxOf (symbol value).toUInt8 = value := by
  decide +kernel

/-- A byte without a value is no symbol. -/
theorem not_mem_symbols {b : UInt8} (h : value? b = none) : b ∉ symbols := by
  intro hmem
  obtain ⟨value, hvalue, rfl⟩ := mem_symbols_iff.mp hmem
  rw [value?_symbol value hvalue] at h
  cases h

/-! ## What faults say -/

/-- What a fault says of the text it is found in, which starts at `start`. -/
def Fault.Tells (start : Nat) (text : Bytes) : Fault → Prop
  | .badSymbol b offset =>
    ∃ front rest, text = front ++ b :: rest ∧ offset = start + front.length ∧ b ∉ symbols
  | .badLength length => length = start + text.length ∧ text.length % 4 = 1
  | .badPadding => text.length % 4 = 2 ∨ text.length % 4 = 3
  | .unusedBits b offset =>
    ∃ front n, text = front ++ b :: List.replicate n pad ∧ offset = start + front.length ∧
      b ∈ symbols ∧ symbols.idxOf b % 4 ^ n ≠ 0

/-- What is said of the end of a text is said of the text, if whole groups are in front of it. -/
theorem Fault.Tells.append {start : Nat} {text : Bytes} {fault : Fault} (front : Bytes)
    (hfull : front.length % 4 = 0) (h : fault.Tells (start + front.length) text) :
    fault.Tells start (front ++ text) := by
  cases fault with
  | badSymbol b offset =>
    obtain ⟨before, rest, rfl, rfl, hother⟩ := h
    refine ⟨front ++ before, rest, (List.append_assoc ..).symm, ?_, hother⟩
    rw [List.length_append, Nat.add_assoc]
  | badLength length =>
    obtain ⟨rfl, hone⟩ := h
    refine ⟨?_, ?_⟩
    · rw [List.length_append, Nat.add_assoc]
    · rw [List.length_append]
      omega
  | badPadding =>
    have hlen : (front ++ text).length % 4 = text.length % 4 := by
      rw [List.length_append]
      omega
    rw [Fault.Tells, hlen]
    exact h
  | unusedBits b offset =>
    obtain ⟨before, n, rfl, rfl, hsymbol, hbits⟩ := h
    refine ⟨front ++ before, n, (List.append_assoc ..).symm, ?_, hsymbol, hbits⟩
    rw [List.length_append, Nat.add_assoc]

theorem tells_of_valueAt {start : Nat} {b : UInt8} {fault : Fault} (front rest : Bytes)
    (h : valueAt (start + front.length) b = .error fault) :
    fault.Tells start (front ++ b :: rest) := by
  rw [valueAt] at h
  split at h
  · cases h
  · next hvalue =>
    obtain rfl := Except.error.inj h
    exact ⟨front, rest, rfl, rfl, not_mem_symbols hvalue⟩

/-! ## The last group -/

/-- **What is found on the way through the last group.** What was passed so far stands in front, the
first padding at its offset. -/
theorem tells_of_scanTail {start index : Nat} {tail : Tail} {text : Bytes} {fault : Fault}
    (front : Bytes) (hindex : front.length = index)
    (hpad : 0 < tail.padding →
      ∃ before after, front = before ++ pad :: after ∧ tail.padAt = start + before.length)
    (h : scanTail start index tail text = .error fault) : fault.Tells start (front ++ text) := by
  fun_induction scanTail start index tail text generalizing front with
  | case1 => cases h
  | case2 index tail rest =>
    obtain rfl := Except.error.inj h
    exact ⟨front, rest, rfl, by rw [hindex], pad_not_mem_symbols⟩
  | case3 index tail rest hplace padAt ih =>
    have hfirst : ∃ before after, front ++ [pad] = before ++ pad :: after ∧
        padAt = start + before.length := by
      by_cases hnone : tail.padding = 0
      · exact ⟨front, [], rfl, by simp only [padAt, if_pos hnone, hindex]⟩
      · obtain ⟨before, after, rfl, hat⟩ := hpad (Nat.pos_of_ne_zero hnone)
        exact ⟨before, after ++ [pad], by simp, by simp only [padAt, if_neg hnone, hat]⟩
    have hrest := ih (front ++ [pad]) (by simp [hindex]) (fun _ => hfirst) h
    rwa [List.append_assoc] at hrest
  | case4 index tail b rest _ hpadding =>
    obtain rfl := Except.error.inj h
    obtain ⟨before, after, rfl, hat⟩ := hpad hpadding
    exact ⟨before, after ++ b :: rest, by simp, hat, pad_not_mem_symbols⟩
  | case5 index tail b rest _ hpadding value _ ih =>
    have hrest := ih (front ++ [b]) (by simp [hindex]) (fun hpos => absurd hpos hpadding) h
    rwa [List.append_assoc] at hrest
  | case6 index tail b rest _ _ fault' hvalue =>
    obtain rfl := Except.error.inj h
    rw [← hindex] at hvalue
    exact tells_of_valueAt front rest hvalue

/-- Padding stands behind two symbols at least. -/
theorem two_le_of_scanTail {start n : Nat} {values : List Nat} {tail : Tail}
    (hlt : ∀ value ∈ values, value < 64) (hn : n ≠ 0)
    (h : scanTail start 0 ⟨[], 0, 0⟩ (spell values ++ List.replicate n pad) = .ok tail) :
    2 ≤ values.length := by
  obtain ⟨m, rfl⟩ := Nat.exists_eq_succ_of_ne_zero hn
  rw [scanTail_spell start 0 [] hlt, List.replicate_succ, scanTail, if_pos rfl,
    Nat.zero_add] at h
  split at h
  · cases h
  · next hplace => exact Nat.le_of_not_lt hplace

/-- The bits of a symbol, told by its place among the symbols. -/
theorem tells_unusedBits {start value n : Nat} (front : List Nat) (hlt : value < 64)
    (hbits : value % 4 ^ n ≠ 0) :
    Fault.Tells start (spell (front ++ [value]) ++ List.replicate n pad)
      (.unusedBits (symbol value).toUInt8 (start + front.length)) := by
  refine ⟨spell front, n, ?_, ?_, mem_symbols_iff.mpr ⟨value, hlt, rfl⟩, ?_⟩
  · simp [spell]
  · rw [spell, List.length_map]
  · rwa [idxOf_toUInt8_symbol value hlt]

/-- **What is found of the unused bits**, once the last group is its symbols and the padding that
fills it up. -/
theorem tells_of_tailBytes {start n : Nat} {values : List Nat} {fault : Fault}
    (hlt : ∀ value ∈ values, value < 64) (hfull : n + values.length = 4)
    (h : tailBytes start (scanned values) = .error fault) :
    fault.Tells start (spell values ++ List.replicate n pad) := by
  match values with
  | [] | [_] => cases h
  | [s, t] =>
    obtain rfl : n = 2 := by simpa using hfull
    rw [scanned, List.map_cons, List.map_singleton, tailBytes] at h
    split at h
    · cases h
    · next hbits =>
      obtain rfl := Except.error.inj h
      exact tells_unusedBits [s] (hlt t (by simp)) hbits
  | [s, t, u] =>
    obtain rfl : n = 1 := by simpa using hfull
    rw [scanned, List.map_cons, List.map_cons, List.map_singleton, tailBytes] at h
    split at h
    · cases h
    · next hbits =>
      obtain rfl := Except.error.inj h
      exact tells_unusedBits [s, t] (hlt u (by simp)) hbits
  | [_, _, _, _] => cases h
  | _ :: _ :: _ :: _ :: _ :: _ =>
    simp only [List.length_cons] at hfull
    omega

theorem tells_of_decodeTail {start : Nat} {text : Bytes} {fault : Fault} (hne : text ≠ [])
    (hlen : text.length ≤ 4) (h : decodeTail start text = .error fault) :
    fault.Tells start text := by
  simp only [decodeTail, bind, Except.bind] at h
  split at h
  · next hscan =>
    obtain rfl := Except.error.inj h
    exact tells_of_scanTail [] rfl (fun hpos => absurd hpos (Nat.lt_irrefl 0)) hscan
  next tail hscan =>
  obtain ⟨values, n, rfl, hlt, hsymbols, hpadding, -⟩ := eq_spell_of_scanTail hscan
  have htwo : n ≠ 0 → 2 ≤ values.length := fun hn => two_le_of_scanTail hlt hn hscan
  simp only [Nat.zero_add] at hpadding
  have hcount : tail.symbols.length = values.length := by
    rw [hsymbols, List.nil_append, scanned, List.length_map]
  have htext : (spell values ++ List.replicate n pad).length = values.length + n := by
    rw [List.length_append, spell, List.length_map, List.length_replicate]
  have hpos := List.length_pos_iff.mpr hne
  rw [hcount, hpadding, hsymbols] at h
  rw [htext] at hlen hpos
  split at h
  · obtain rfl := Except.error.inj h
    rw [Fault.Tells, htext]
    omega
  split at h
  · obtain rfl := Except.error.inj h
    rw [Fault.Tells, htext]
    omega
  · next hsome hfull =>
    have hgroup : n + values.length = 4 := by
      simp only [Nat.not_lt, ne_eq, Decidable.not_not] at hsome hfull
      omega
    exact tells_of_tailBytes hlt hgroup h

/-! ## Whole texts -/

theorem tells_of_quadBytes {start : Nat} {a b c d : UInt8} {fault : Fault} (rest : Bytes)
    (h : quadBytes start a b c d = .error fault) :
    fault.Tells start (a :: b :: c :: d :: rest) := by
  simp only [quadBytes, bind, Except.bind] at h
  split at h
  · next hfault =>
    obtain rfl := Except.error.inj h
    exact tells_of_valueAt [] _ hfault
  split at h
  · next hfault =>
    obtain rfl := Except.error.inj h
    exact tells_of_valueAt [a] _ hfault
  split at h
  · next hfault =>
    obtain rfl := Except.error.inj h
    exact tells_of_valueAt [a, b] _ hfault
  split at h
  · next hfault =>
    obtain rfl := Except.error.inj h
    exact tells_of_valueAt [a, b, c] _ hfault
  · cases h

theorem tells_of_decodeFrom {start : Nat} {text : Bytes} {fault : Fault}
    (h : decodeFrom start text = .error fault) : fault.Tells start text := by
  fun_induction decodeFrom start text with
  | case1 => cases h
  | case2 start a b c d => exact tells_of_decodeTail (by simp) (Nat.le_refl 4) h
  | case3 start a b c d e rest ih =>
    rcases bind_eq_error_iff.mp h with hgroup | ⟨group, -, hrest⟩
    · exact tells_of_quadBytes (e :: rest) hgroup
    · rcases bind_eq_error_iff.mp hrest with hrest | ⟨data, -, hdone⟩
      · exact (ih hrest).append [a, b, c, d] (Nat.mod_self 4)
      · cases hdone
  | case4 start text hnil hgroup =>
    refine tells_of_decodeTail hnil ?_ h
    rcases text with _ | ⟨a, _ | ⟨b, _ | ⟨c, _ | ⟨d, rest⟩⟩⟩⟩
    · simp
    · simp
    · simp
    · simp
    · exact absurd rfl (hgroup a b c d rest)

/-- **Every fault tells the truth** about the text it is found in. -/
theorem tells_of_decode {text : Bytes} {fault : Fault} (h : decode text = .error fault) :
    fault.Tells 0 text := by
  rw [decode] at h
  split at h
  · next b hlast =>
    split at h
    · next hlone =>
      obtain rfl := Except.error.inj h
      rw [Bool.and_eq_true, Bool.not_eq_true', isKnown, Bool.or_eq_false_iff,
        Option.isSome_eq_false_iff, Option.isNone_iff_eq_none] at hlone
      obtain ⟨-, -, hvalue⟩ := hlone
      have htext := List.dropLast_append_getLast? b hlast
      refine ⟨text.dropLast, [], htext.symm, ?_, not_mem_symbols hvalue⟩
      rw [List.length_dropLast, Nat.zero_add]
    · exact tells_of_decodeFrom h
  · cases h

end Base64

/-! ## Texts as strings -/

namespace Codec

theorem getElem?_of_split {text front rest : Bytes} {b : UInt8} (h : text = front ++ b :: rest) :
    text[front.length]? = some b := by
  simp [h]

theorem decode_hex_eq_error_iff {text : String} {error : Error} :
    Codec.hex.decode text = .error error ↔
      ∃ fault, Hex.decode (Text.Utf8.encode text) = .error fault ∧ error = .codec (.hex fault) := by
  rw [decode, mapError_eq_error_iff]
  simp only [Function.comp_apply, eq_comm]

theorem decode_base64_of_error {text : String} {fault : Base64.Fault}
    (h : Codec.base64.decode text = .error (.codec (.base64 fault))) :
    Base64.decode (Text.Utf8.encode text) = .error fault := by
  rw [decode, mapError_eq_error_iff] at h
  obtain ⟨fault', hdecode, hfault⟩ := h
  cases hfault
  exact hdecode

/-- A byte that is no digit is told with its offset. -/
theorem message_badDigit (b : UInt8) (i : Nat) :
    (Error.codec (.hex (.badDigit b i))).message = "Codec error: Invalid character " ++
      Text.Quoted.char (Char.ofNat b.toNat) ++ " at position " ++ toString i := by
  have hwords : "Codec error: Invalid character " = "Codec error: " ++ "Invalid character " := by
    decide
  show "Codec error: " ++ ("Invalid character " ++ Text.Quoted.char (Char.ofNat b.toNat) ++
    " at position " ++ toString i) = _
  rw [hwords]
  simp only [String.append_assoc]

/-- **Faults tell where a text is wrong.** A text that is refused as hexadecimal is refused for its
odd number of bytes, or else for the first byte that is no digit. As base64 it may be refused for a
byte that is no symbol, which stands where the fault says, or for the last symbol, behind which
is nothing but padding and of whose bits two go unused for each place of it, but not all of them
are zero. -/
theorem faults_point_at_bytes :
    (∀ (text : String) (error : Error), Codec.hex.decode text = .error error →
      let bytes := Text.Utf8.encode text
      (bytes.length % 2 = 1 ∧ error = .codec (.hex .oddLength) ∧
        error.message = "Codec error: Odd number of digits") ∨
      (bytes.length % 2 = 0 ∧ ∃ (b : UInt8) (i : Nat), bytes[i]? = some b ∧ b ∉ Hex.digits ∧
        (∀ d ∈ bytes.take i, d ∈ Hex.digits) ∧ error = .codec (.hex (.badDigit b i)) ∧
        error.message = "Codec error: Invalid character " ++
          Text.Quoted.char (Char.ofNat b.toNat) ++ " at position " ++ toString i)) ∧
    (∀ (text : String) (b : UInt8) (i : Nat),
      Codec.base64.decode text = .error (.codec (.base64 (.badSymbol b i))) →
      let bytes := Text.Utf8.encode text
      i < bytes.length ∧ bytes[i]? = some b ∧ b ∉ Base64.symbols) ∧
    ∀ (text : String) (b : UInt8) (i : Nat),
      Codec.base64.decode text = .error (.codec (.base64 (.unusedBits b i))) →
      let bytes := Text.Utf8.encode text
      bytes[i]? = some b ∧ b ∈ Base64.symbols ∧
        ∃ n, bytes.drop (i + 1) = List.replicate n Base64.pad ∧
          Base64.symbols.idxOf b % 4 ^ n ≠ 0 := by
  refine ⟨fun text error h => ?_, fun text b i h => ?_, fun text b i h => ?_⟩
  · obtain ⟨fault, hfault, rfl⟩ := decode_hex_eq_error_iff.mp h
    rcases Hex.decode_cases (Text.Utf8.encode text) with ⟨hodd, hdecode⟩ |
      ⟨heven, front, b, rest, htext, hfront, hother, hdecode⟩ | ⟨-, data, hdecode, -⟩
    · rw [hdecode] at hfault
      obtain rfl := Except.error.inj hfault
      exact .inl ⟨hodd, rfl, rfl⟩
    · rw [hdecode] at hfault
      obtain rfl := Except.error.inj hfault
      refine .inr ⟨heven, b, front.length, getElem?_of_split htext, hother, ?_, rfl, ?_⟩
      · rwa [htext, List.take_left]
      · exact message_badDigit b front.length
    · rw [hdecode] at hfault
      cases hfault
  · obtain ⟨front, rest, htext, hi, hother⟩ := Base64.tells_of_decode (decode_base64_of_error h)
    rw [Nat.zero_add] at hi
    subst hi
    have hat := getElem?_of_split htext
    obtain ⟨hlt, -⟩ := List.getElem?_eq_some_iff.mp hat
    exact ⟨hlt, hat, hother⟩
  · obtain ⟨front, n, htext, hi, hsymbol, hbits⟩ :=
      Base64.tells_of_decode (decode_base64_of_error h)
    rw [Nat.zero_add] at hi
    subst hi
    refine ⟨getElem?_of_split htext, hsymbol, n, ?_, hbits⟩
    rw [htext, List.drop_length_add_append]
    rfl

/-- A character that is no digit, padding in front of a symbol, and a last symbol with bits to
spare. -/
theorem faults_point_at_bytes_of_samples :
    (Codec.hex.decode "0\u00e91" = .error (.codec (.hex (.badDigit 0xC3 1))) ∧
      (Text.Utf8.encode "0\u00e91")[1]? = some 0xC3 ∧ 0xC3 ∉ Hex.digits) ∧
    (Codec.base64.decode "QUJDQU=J" = .error (.codec (.base64 (.badSymbol Base64.pad 6))) ∧
      (Text.Utf8.encode "QUJDQU=J")[6]? = some Base64.pad ∧ Base64.pad ∉ Base64.symbols) ∧
    (Codec.base64.decode "QUJDQUJ=" = .error (.codec (.base64 (.unusedBits 74 6))) ∧
      (Text.Utf8.encode "QUJDQUJ=")[6]? = some 74 ∧ 74 ∈ Base64.symbols) := by
  obtain ⟨hhex, hsymbol, hbits⟩ := faults_point_at_bytes
  have hdigit : Codec.hex.decode "0\u00e91" = .error (.codec (.hex (.badDigit 0xC3 1))) := by
    decide +kernel
  have hpad : Codec.base64.decode "QUJDQU=J" =
      .error (.codec (.base64 (.badSymbol Base64.pad 6))) := by
    decide +kernel
  have hlast : Codec.base64.decode "QUJDQUJ=" = .error (.codec (.base64 (.unusedBits 74 6))) := by
    decide +kernel
  refine ⟨⟨hdigit, ?_⟩, ⟨hpad, (hsymbol _ _ _ hpad).2⟩, hlast, ?_⟩
  · rcases hhex _ _ hdigit with ⟨-, hodd, -⟩ | ⟨-, b, i, hat, hother, -, herror, -⟩
    · cases hodd
    · cases herror
      exact ⟨hat, hother⟩
  · obtain ⟨hat, hmem, -⟩ := hbits _ _ _ hlast
    exact ⟨hat, hmem⟩

end Codec

end Strongbox
