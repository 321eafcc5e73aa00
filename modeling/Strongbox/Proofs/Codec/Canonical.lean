import Mathlib.Algebra.Group.Nat.Defs
import Strongbox.Proofs.Codec
import Strongbox.Proofs.Text.Utf8

/-!
# Base64 has one spelling

Reading base64 is strict enough to undo writing in both directions: a text that is read is the one
that is written for the bytes it is read as. Which texts these are can be told from their symbols
alone: the groups are full, no more than two places of the last one are padding, and the bits that
no byte uses are zero.

## Main definitions

* `Base64.alphabet`: the symbols in the order of their values
* `Base64.Canonical`: the texts that are written

## Main results

* `Base64.eq_encode_of_decode`: a text that is read is the one that is written
* `Base64.exists_encode_iff`: which texts are written
* `Codec.base64_eq_ok_iff`: reading and writing are inverse to each other, and all else is refused
-/

namespace Strongbox

namespace Base64

/-! ## Symbols -/

/-- A byte with a value is the symbol of that value. -/
theorem symbol_of_value? {b : UInt8} {value : Nat} (h : value? b = some value) :
    value < 64 ∧ (symbol value).toUInt8 = b := by
  -- one byte after the other, since no rule tells the values of symbols
  have hall : ∀ n < 256, (value? (UInt8.ofNat n)).all
      (fun value => value < 64 && (symbol value).toUInt8 == UInt8.ofNat n) = true := by
    decide +kernel
  have hb := hall b.toNat b.toNat_lt
  rw [UInt8.ofNat_toNat, h, Option.all_some, Bool.and_eq_true, decide_eq_true_eq,
    beq_iff_eq] at hb
  exact hb

theorem symbol_of_valueAt {offset value : Nat} {b : UInt8} (h : valueAt offset b = .ok value) :
    value < 64 ∧ (symbol value).toUInt8 = b := by
  rw [valueAt] at h
  split at h
  · next hvalue =>
    obtain rfl := Except.ok.inj h
    exact symbol_of_value? hvalue
  · cases h

/-! ## Groups are written as they are read -/

section

variable {s t u v : Nat} (hs : s < 64) (ht : t < 64) (hu : u < 64) (hv : v < 64)

include hs ht

/-- Two symbols of which eight bits are used. -/
theorem encode_of_two (hunused : t % 16 = 0) :
    encode [UInt8.ofNat ((s * 64 + t) / 16)] = [symbol s, symbol t, '=', '='] := by
  have htoNat : (UInt8.ofNat ((s * 64 + t) / 16)).toNat = (s * 64 + t) / 16 :=
    UInt8.toNat_ofNat_of_lt' (show (s * 64 + t) / 16 < 256 by omega)
  rw [encode, htoNat]
  have hfirst : (s * 64 + t) / 16 * 65536 / 262144 = s := by omega
  have hsecond : (s * 64 + t) / 16 * 65536 / 4096 % 64 = t := by omega
  rw [hfirst, hsecond]

include hu

/-- Three symbols of which sixteen bits are used. -/
theorem encode_of_three (hunused : u % 4 = 0) :
    let n := (s * 4096 + t * 64 + u) / 4
    encode [UInt8.ofNat (n / 256), UInt8.ofNat (n % 256)] =
      [symbol s, symbol t, symbol u, '='] := by
  intro n
  have hhigh : (UInt8.ofNat (n / 256)).toNat = n / 256 :=
    UInt8.toNat_ofNat_of_lt' (show n / 256 < 256 by omega)
  have hlow : (UInt8.ofNat (n % 256)).toNat = n % 256 :=
    UInt8.toNat_ofNat_of_lt' (Nat.mod_lt n (by decide))
  rw [encode, hhigh, hlow]
  have hfirst : (n / 256 * 65536 + n % 256 * 256) / 262144 = s := by omega
  have hsecond : (n / 256 * 65536 + n % 256 * 256) / 4096 % 64 = t := by omega
  have hthird : (n / 256 * 65536 + n % 256 * 256) / 64 % 64 = u := by omega
  rw [hfirst, hsecond, hthird]

include hv

/-- Four symbols hold three bytes, whatever comes after them. -/
theorem encode_of_four (rest : Bytes) :
    let n := s * 262144 + t * 4096 + u * 64 + v
    encode (UInt8.ofNat (n / 65536) :: UInt8.ofNat (n / 256 % 256) :: UInt8.ofNat (n % 256) ::
        rest) = symbol s :: symbol t :: symbol u :: symbol v :: encode rest := by
  intro n
  have hhigh : (UInt8.ofNat (n / 65536)).toNat = n / 65536 :=
    UInt8.toNat_ofNat_of_lt' (show n / 65536 < 256 by omega)
  have hmid : (UInt8.ofNat (n / 256 % 256)).toNat = n / 256 % 256 :=
    UInt8.toNat_ofNat_of_lt' (Nat.mod_lt _ (by decide))
  have hlow : (UInt8.ofNat (n % 256)).toNat = n % 256 :=
    UInt8.toNat_ofNat_of_lt' (Nat.mod_lt n (by decide))
  have hjoined : n / 65536 * 65536 + n / 256 % 256 * 256 + n % 256 = n := by omega
  rw [encode, hhigh, hmid, hlow, hjoined]
  have hfirst : n / 262144 = s := by omega
  have hsecond : n / 4096 % 64 = t := by omega
  have hthird : n / 64 % 64 = u := by omega
  have hfourth : n % 64 = v := by omega
  rw [hfirst, hsecond, hthird, hfourth]

end

/-- Four bytes that are read as three are what is written for them. -/
theorem eq_encode_of_quadBytes {start : Nat} {a b c d : UInt8} {group : Bytes}
    (h : quadBytes start a b c d = .ok group) (rest : Bytes) :
    a :: b :: c :: d :: (encode rest).map Char.toUInt8 =
      (encode (group ++ rest)).map Char.toUInt8 := by
  simp only [quadBytes, bind, Except.bind] at h
  split at h
  · cases h
  next s hs =>
  split at h
  · cases h
  next t ht =>
  split at h
  · cases h
  next u hu =>
  split at h
  · cases h
  next v hv =>
  obtain rfl := Except.ok.inj h
  obtain ⟨hlts, rfl⟩ := symbol_of_valueAt hs
  obtain ⟨hltt, rfl⟩ := symbol_of_valueAt ht
  obtain ⟨hltu, rfl⟩ := symbol_of_valueAt hu
  obtain ⟨hltv, rfl⟩ := symbol_of_valueAt hv
  exact congrArg (List.map Char.toUInt8) (encode_of_four hlts hltt hltu hltv rest).symm

/-! ## The last group -/

/-- The characters of some symbols, and of the padding after them. -/
def padded (values : List Nat) (n : Nat) : List Char :=
  values.map symbol ++ List.replicate n '='

theorem map_padded (values : List Nat) (n : Nat) :
    (padded values n).map Char.toUInt8 = spell values ++ List.replicate n pad := by
  rw [padded, List.map_append, List.map_map, List.map_replicate, spell]
  rfl

/-- What is taken apart is symbols with padding behind them; none may come once padding has. -/
theorem eq_spell_of_scanTail {start index : Nat} {tail tail' : Tail} {text : Bytes}
    (h : scanTail start index tail text = .ok tail') :
    ∃ values n, text = spell values ++ List.replicate n pad ∧ (∀ value ∈ values, value < 64) ∧
      tail'.symbols = tail.symbols ++ scanned values ∧ tail'.padding = tail.padding + n ∧
      (0 < tail.padding → values = []) := by
  fun_induction scanTail start index tail text with
  | case1 =>
    obtain rfl := Except.ok.inj h
    exact ⟨[], 0, rfl, by simp, by simp [scanned], rfl, fun _ => rfl⟩
  | case2 => cases h
  | case3 index tail rest _ _ ih =>
    obtain ⟨values, n, rfl, -, hsymbols, hpadding, hnone⟩ := ih h
    obtain rfl := hnone (Nat.succ_pos _)
    refine ⟨[], n + 1, rfl, by simp, hsymbols, ?_, fun _ => rfl⟩
    show tail'.padding = tail.padding + (n + 1)
    rw [hpadding, Nat.add_assoc, Nat.add_comm 1]
  | case4 => cases h
  | case5 index tail b rest _ hpadding value hvalue ih =>
    obtain ⟨values, n, rfl, hlt, hsymbols, hpad, -⟩ := ih h
    obtain ⟨hlt', rfl⟩ := symbol_of_valueAt hvalue
    refine ⟨value :: values, n, rfl, List.forall_mem_cons.mpr ⟨hlt', hlt⟩, ?_, hpad,
      fun hpos => absurd hpos hpadding⟩
    rw [hsymbols, List.append_assoc]
    rfl
  | case6 => cases h

/-- The last group as its symbols and its padding. -/
theorem encode_of_tailBytes {start n : Nat} {values : List Nat} {data : Bytes}
    (hlt : ∀ value ∈ values, value < 64) (hfull : n + values.length = 4)
    (htwo : 2 ≤ values.length) (h : tailBytes start (scanned values) = .ok data) :
    encode data = padded values n := by
  match values with
  | [] | [_] => exact absurd htwo (by simp)
  | [s, t] =>
    obtain rfl : n = 2 := by simpa using hfull
    simp only [List.forall_mem_cons] at hlt
    obtain ⟨hs, ht, -⟩ := hlt
    rw [scanned, List.map_cons, List.map_singleton, tailBytes] at h
    split at h
    · next hunused =>
      obtain rfl := Except.ok.inj h
      exact encode_of_two hs ht hunused
    · cases h
  | [s, t, u] =>
    obtain rfl : n = 1 := by simpa using hfull
    simp only [List.forall_mem_cons] at hlt
    obtain ⟨hs, ht, hu, -⟩ := hlt
    rw [scanned, List.map_cons, List.map_cons, List.map_singleton, tailBytes] at h
    split at h
    · next hunused =>
      obtain rfl := Except.ok.inj h
      exact encode_of_three hs ht hu hunused
    · cases h
  | [s, t, u, v] =>
    obtain rfl : n = 0 := by simpa using hfull
    simp only [List.forall_mem_cons] at hlt
    obtain ⟨hs, ht, hu, hv, -⟩ := hlt
    obtain rfl := Except.ok.inj h
    exact encode_of_four hs ht hu hv []
  | _ :: _ :: _ :: _ :: _ :: _ =>
    simp only [List.length_cons] at hfull
    omega

/-- A last group that is read is what is written for its bytes. -/
theorem eq_encode_of_decodeTail {start : Nat} {text data : Bytes} (hlen : text.length ≤ 4)
    (h : decodeTail start text = .ok data) : text = (encode data).map Char.toUInt8 := by
  simp only [decodeTail, bind, Except.bind] at h
  split at h
  · cases h
  next tail htail =>
  obtain ⟨values, n, rfl, hlt, hsymbols, hpadding, -⟩ := eq_spell_of_scanTail htail
  have hcount : tail.symbols.length = values.length := by
    rw [hsymbols, List.nil_append, scanned, List.length_map]
  rw [hcount, hpadding, hsymbols] at h
  rw [List.length_append, spell, List.length_map, List.length_replicate] at hlen
  split at h
  · cases h
  next htwo =>
  split at h
  · cases h
  next hfull =>
  have hgroup : n + values.length = 4 := by
    simp only [Nat.not_lt, ne_eq, Decidable.not_not] at htwo hfull
    omega
  rw [encode_of_tailBytes hlt hgroup (Nat.not_lt.mp htwo) h, map_padded]

/-! ## Whole texts -/

theorem eq_encode_of_decodeFrom {start : Nat} {text data : Bytes}
    (h : decodeFrom start text = .ok data) : text = (encode data).map Char.toUInt8 := by
  fun_induction decodeFrom start text generalizing data with
  | case1 =>
    obtain rfl := Except.ok.inj h
    rfl
  | case2 start a b c d => exact eq_encode_of_decodeTail (Nat.le_refl 4) h
  | case3 start a b c d e rest ih =>
    simp only [bind, Except.bind] at h
    split at h
    · cases h
    next group hgroup =>
    split at h
    · cases h
    next data' hdata =>
    obtain rfl := Except.ok.inj h
    rw [ih hdata]
    exact eq_encode_of_quadBytes hgroup data'
  | case4 start text hnil hgroup =>
    refine eq_encode_of_decodeTail ?_ h
    match text with
    | [] | [_] | [_, _] | [_, _, _] => simp
    | a :: b :: c :: d :: rest => exact absurd rfl (hgroup a b c d rest)

/-- **A text that is read is the one that is written** for the bytes it is read as. -/
theorem eq_encode_of_decode {text data : Bytes} (h : decode text = .ok data) :
    text = (encode data).map Char.toUInt8 := by
  rw [decode] at h
  split at h
  · split at h
    · cases h
    · exact eq_encode_of_decodeFrom h
  · next hlast =>
    rw [List.getLast?_eq_none_iff] at hlast
    obtain rfl := Except.ok.inj h
    exact hlast

/-! ## Which texts are written -/

/-- The symbols in the order of their values. -/
def alphabet : List Char :=
  "ABCDEFGHIJKLMNOPQRSTUVWXYZabcdefghijklmnopqrstuvwxyz0123456789+/".toList

/-- The texts that are written: symbols of the alphabet with no more padding than fills up the last
group, and no bits set in the last symbol that the padding leaves without use, two for each place
of it. -/
def Canonical (text : List Char) : Prop :=
  ∃ (symbols : List Char) (n : Nat), text = symbols ++ List.replicate n '=' ∧
    (∀ c ∈ symbols, c ∈ alphabet) ∧ n ≤ 2 ∧ (symbols.length + n) % 4 = 0 ∧
    ∀ c ∈ symbols.getLast?, alphabet.idxOf c % 4 ^ n = 0

theorem alphabet_eq : alphabet = (List.range 64).map symbol := by
  decide +kernel

theorem idxOf_symbol : ∀ value < 64, alphabet.idxOf (symbol value) = value := by
  decide +kernel

/-- Whether some values with some padding are a full text with no unused bits set. -/
def Fits (values : List Nat) (n : Nat) : Prop :=
  (∀ value ∈ values, value < 64) ∧ n ≤ 2 ∧ (values.length + n) % 4 = 0 ∧
    ∀ value ∈ values.getLast?, value % 4 ^ n = 0

/-- The symbols of a text can be given by their values. -/
theorem canonical_iff {text : List Char} :
    Canonical text ↔ ∃ values n, text = padded values n ∧ Fits values n := by
  constructor
  · rintro ⟨symbols, n, rfl, hmem, hle, hfull, hlast⟩
    have hvalue : ∀ c ∈ symbols, alphabet.idxOf c < 64 ∧ symbol (alphabet.idxOf c) = c := by
      intro c hc
      obtain ⟨value, hvalue, rfl⟩ : ∃ value < 64, symbol value = c := by
        simpa [alphabet_eq] using hmem c hc
      rw [idxOf_symbol value hvalue]
      exact ⟨hvalue, rfl⟩
    have hsymbols : (symbols.map (alphabet.idxOf ·)).map symbol = symbols := by
      rw [List.map_map]
      exact (List.map_congr_left fun c hc => (hvalue c hc).2).trans (List.map_id symbols)
    refine ⟨symbols.map (alphabet.idxOf ·), n, ?_, ?_, hle, ?_, ?_⟩
    · rw [padded, hsymbols]
    · simpa using fun c hc => (hvalue c hc).1
    · rwa [List.length_map]
    · simpa using hlast
  · rintro ⟨values, n, rfl, hlt, hle, hfull, hlast⟩
    refine ⟨values.map symbol, n, rfl, ?_, hle, ?_, ?_⟩
    · simpa [alphabet_eq] using fun value hvalue => ⟨value, hlt value hvalue, rfl⟩
    · rwa [List.length_map]
    · intro c hc
      rw [List.getLast?_map] at hc
      obtain ⟨value, hvalue, rfl⟩ := Option.map_eq_some_iff.mp hc
      rw [idxOf_symbol value (hlt value (List.mem_of_getLast? hvalue))]
      exact hlast value hvalue

/-- Four symbols in front change nothing about the last group. -/
theorem fits_four {s t u v n : Nat} {values : List Nat} :
    Fits (s :: t :: u :: v :: values) n ↔
      (s < 64 ∧ t < 64 ∧ u < 64 ∧ v < 64) ∧ Fits values n := by
  have hlen : ((s :: t :: u :: v :: values).length + n) % 4 = (values.length + n) % 4 := by
    simp only [List.length_cons]
    omega
  have hlast (h : (values.length + n) % 4 = 0) (hle : n ≤ 2) :
      (∀ value ∈ (s :: t :: u :: v :: values).getLast?, value % 4 ^ n = 0) ↔
        ∀ value ∈ values.getLast?, value % 4 ^ n = 0 := by
    cases values with
    | nil =>
      obtain rfl : n = 0 := by
        simp only [List.length_nil] at h
        omega
      simp [Nat.mod_one]
    | cons value values => simp
  simp only [Fits, hlen, List.forall_mem_cons]
  constructor
  · rintro ⟨⟨hs, ht, hu, hv, hlt⟩, hle, hfull, h⟩
    exact ⟨⟨hs, ht, hu, hv⟩, hlt, hle, hfull, (hlast hfull hle).mp h⟩
  · rintro ⟨⟨hs, ht, hu, hv⟩, hlt, hle, hfull, h⟩
    exact ⟨⟨hs, ht, hu, hv, hlt⟩, hle, hfull, (hlast hfull hle).mpr h⟩

/-- What fits is written for some bytes. -/
theorem exists_encode_eq_padded :
    ∀ {values : List Nat} {n : Nat}, Fits values n → ∃ data, encode data = padded values n
  | [], n, ⟨_, hle, hfull, _⟩ => by
    obtain rfl : n = 0 := by
      simp only [List.length_nil] at hfull
      omega
    exact ⟨[], rfl⟩
  | [_], n, ⟨_, hle, hfull, _⟩ => by
    simp only [List.length_singleton] at hfull
    omega
  | [s, t], n, ⟨hlt, hle, hfull, hlast⟩ => by
    obtain rfl : n = 2 := by
      simp only [List.length_cons, List.length_nil] at hfull
      omega
    simp only [List.forall_mem_cons] at hlt
    exact ⟨_, encode_of_two hlt.1 hlt.2.1 (hlast t rfl)⟩
  | [s, t, u], n, ⟨hlt, hle, hfull, hlast⟩ => by
    obtain rfl : n = 1 := by
      simp only [List.length_cons, List.length_nil] at hfull
      omega
    simp only [List.forall_mem_cons] at hlt
    exact ⟨_, encode_of_three hlt.1 hlt.2.1 hlt.2.2.1 (hlast u rfl)⟩
  | s :: t :: u :: v :: values, n, hfits => by
    obtain ⟨⟨hs, ht, hu, hv⟩, hrest⟩ := fits_four.mp hfits
    obtain ⟨data, hdata⟩ := exists_encode_eq_padded hrest
    refine ⟨_, (encode_of_four hs ht hu hv data).trans ?_⟩
    rw [hdata]
    rfl

/-- What is written fits. -/
theorem exists_padded_eq_encode (data : Bytes) :
    ∃ values n, encode data = padded values n ∧ Fits values n := by
  fun_induction encode data with
  | case1 => exact ⟨[], 0, rfl, by simp [Fits]⟩
  | case2 a n =>
    have ha := a.toNat_lt
    refine ⟨[n / 262144, n / 4096 % 64], 2, rfl, ?_⟩
    simp [Fits]
    omega
  | case3 a b n =>
    have ha := a.toNat_lt
    have hb := b.toNat_lt
    refine ⟨[n / 262144, n / 4096 % 64, n / 64 % 64], 1, rfl, ?_⟩
    simp [Fits]
    omega
  | case4 a b c rest n ih =>
    obtain ⟨values, k, hencode, hfits⟩ := ih
    have hgroup := values_lt a b c
    simp only [List.forall_mem_cons] at hgroup
    obtain ⟨hs, ht, hu, hv, -⟩ := hgroup
    refine ⟨_ :: _ :: _ :: _ :: values, k, ?_, fits_four.mpr ⟨⟨hs, ht, hu, hv⟩, hfits⟩⟩
    rw [hencode]
    rfl

/-- **The canonical texts are those that are written.** -/
theorem exists_encode_iff {text : List Char} : (∃ data, text = encode data) ↔ Canonical text := by
  rw [canonical_iff]
  constructor
  · rintro ⟨data, rfl⟩
    exact exists_padded_eq_encode data
  · rintro ⟨values, n, rfl, hfits⟩
    obtain ⟨data, hdata⟩ := exists_encode_eq_padded hfits
    exact ⟨data, hdata.symm⟩

end Base64

/-! ## Texts as strings -/

/-- A text is told from its bytes. -/
theorem Text.Utf8.encode_injective : Function.Injective encode := by
  intro s t h
  have hdecode := decode_encode s
  rw [h, decode_encode t] at hdecode
  exact (Except.ok.inj hdecode).symm

namespace Codec

/-- **Base64 texts and byte strings are one to one**: a text is read as the byte string it is
written for, and as no other. -/
theorem base64_eq_ok_iff {text : String} {data : Bytes} :
    Codec.base64.decode text = .ok data ↔ text = Codec.base64.encode data := by
  constructor
  · intro h
    rw [decode] at h
    cases hdecode : Base64.decode (Text.Utf8.encode text) with
    | error fault => rw [hdecode] at h; cases h
    | ok data' =>
      rw [hdecode] at h
      obtain rfl := Except.ok.inj h
      refine Text.Utf8.encode_injective ?_
      rw [Base64.eq_encode_of_decode hdecode, encode,
        Text.Utf8.encode_ofList_of_ascii fun _ => Base64.toNat_lt_of_mem_encode]
  · rintro rfl
    exact decode_encode .base64 data

/-- A text that is refused is refused for a fault of its spelling. -/
theorem base64_eq_error_iff {text : String} :
    (∃ fault, Codec.base64.decode text = .error (.codec (.base64 fault))) ↔
      ∀ data, text ≠ Codec.base64.encode data := by
  simp only [← base64_eq_ok_iff, ne_eq]
  rw [decode]
  cases Base64.decode (Text.Utf8.encode text) with
  | ok data =>
    constructor
    · rintro ⟨_, h⟩
      cases h
    · intro h
      exact absurd rfl (h data)
  | error fault =>
    refine iff_of_true ⟨fault, rfl⟩ ?_
    intro data h
    cases h

/-- **Base64 has one spelling.** Every byte string is read back from its text, which has four
characters for each three bytes begun; a text is read as a byte string only if it is the text of
that byte string; and the texts that are read are the canonical ones. All others are refused: those
that are no full groups, have padding missing, to spare or inside, have unused bits set, or hold
any character that is no symbol, white space among them. -/
theorem base64_one_spelling :
    (∀ data : Bytes, Codec.base64.decode (Codec.base64.encode data) = .ok data ∧
      (Codec.base64.encode data).length = 4 * ((data.length + 2) / 3)) ∧
    (∀ (text : String) (data : Bytes),
      Codec.base64.decode text = .ok data ↔ text = Codec.base64.encode data) ∧
    ∀ text : String,
      ((∃ data, Codec.base64.decode text = .ok data) ↔ Base64.Canonical text.toList) ∧
      ((∃ fault, Codec.base64.decode text = .error (.codec (.base64 fault))) ↔
        ¬Base64.Canonical text.toList) := by
  have hcanonical (text : String) :
      (∃ data, text = Codec.base64.encode data) ↔ Base64.Canonical text.toList := by
    rw [← Base64.exists_encode_iff]
    refine exists_congr fun data => ?_
    rw [encode, ← String.toList_inj, String.toList_ofList]
  refine ⟨fun data => ⟨decode_encode .base64 data, ?_⟩, fun _ _ => base64_eq_ok_iff,
    fun text => ⟨?_, ?_⟩⟩
  · rw [encode, String.length_ofList, Base64.length_encode]
  · rw [← hcanonical]
    exact exists_congr fun _ => base64_eq_ok_iff
  · rw [base64_eq_error_iff, ← hcanonical, not_exists]

/-- The bits that one place of padding leaves without use have to be zero. -/
example : Codec.base64.decode "QUJ=" = .error (.codec (.base64 (.unusedBits 74 2))) := by
  decide +kernel

end Codec

end Strongbox
