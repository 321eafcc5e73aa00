import Mathlib.Tactic.Common
import Strongbox.Codec.Base64

/-!
# Base64 reads back

Three bytes and four symbols hold the same 24 bits, so that every group reads back as its bytes.
The last group may have fewer symbols and is filled up; its unused bits are zero.

## Main definitions

* `Base64.spell`, `Base64.scanned`: the bytes that spell some values, and what is scanned of them

## Main results

* `Base64.decodeTail_spell`: the last group is read as its symbols, without the padding
* `Base64.decode_encode`: the symbols of a byte string read back as it
* `Base64.toNat_lt_of_mem_encode`: the symbols are ASCII characters
-/

namespace Strongbox.Base64

/-! ## Symbols -/

theorem toNat_symbol_lt : ∀ value < 64, (symbol value).toNat < 128 := by
  decide

theorem symbol_ne_pad : ∀ value < 64, (symbol value).toUInt8 ≠ pad := by
  decide

theorem valueAt_symbol (offset : Nat) {value : Nat} (h : value < 64) :
    valueAt offset (symbol value).toUInt8 = .ok value := by
  rw [valueAt, value?_symbol value h]

/-- The symbols are ASCII characters, and so is the padding. -/
theorem toNat_lt_of_mem_encode {data : Bytes} {c : Char} (h : c ∈ encode data) :
    c.toNat < 128 := by
  have hpad : '='.toNat < 128 := by decide
  fun_induction encode data with
  | case1 => cases h
  | case2 a n =>
    have ha := a.toNat_lt
    simp only [List.mem_cons, List.not_mem_nil, or_false] at h
    rcases h with rfl | rfl | rfl | rfl
    exacts [toNat_symbol_lt _ (by omega), toNat_symbol_lt _ (by omega), hpad, hpad]
  | case3 a b n =>
    have ha := a.toNat_lt
    have hb := b.toNat_lt
    simp only [List.mem_cons, List.not_mem_nil, or_false] at h
    rcases h with rfl | rfl | rfl | rfl
    exacts [toNat_symbol_lt _ (by omega), toNat_symbol_lt _ (by omega),
      toNat_symbol_lt _ (by omega), hpad]
  | case4 a b c' rest n ih =>
    have ha := a.toNat_lt
    have hb := b.toNat_lt
    have hc := c'.toNat_lt
    simp only [List.mem_cons] at h
    rcases h with rfl | rfl | rfl | rfl | h
    exacts [toNat_symbol_lt _ (by omega), toNat_symbol_lt _ (by omega),
      toNat_symbol_lt _ (by omega), toNat_symbol_lt _ (by omega), ih h]

/-! ## Groups in the middle -/

theorem quadBytes_symbol (start : Nat) {s t u v : Nat} (hs : s < 64) (ht : t < 64) (hu : u < 64)
    (hv : v < 64) :
    quadBytes start (symbol s).toUInt8 (symbol t).toUInt8 (symbol u).toUInt8 (symbol v).toUInt8 =
      let n := s * 262144 + t * 4096 + u * 64 + v
      .ok [UInt8.ofNat (n / 65536), UInt8.ofNat (n / 256 % 256), UInt8.ofNat (n % 256)] := by
  simp only [quadBytes, valueAt_symbol _ hs, valueAt_symbol _ ht, valueAt_symbol _ hu,
    valueAt_symbol _ hv, bind, Except.bind]
  rfl

/-! ## The last group -/

/-- The bytes that spell some values. -/
def spell (values : List Nat) : Bytes := values.map fun value => (symbol value).toUInt8

/-- What is scanned of the bytes that spell some values. -/
def scanned (values : List Nat) : List (UInt8 × Nat) :=
  values.map fun value => ((symbol value).toUInt8, value)

/-- Symbols are taken one by one, as long as no padding came before them. -/
theorem scanTail_spell (start index : Nat) (symbols : List (UInt8 × Nat)) {values : List Nat}
    (h : ∀ value ∈ values, value < 64) (rest : Bytes) :
    scanTail start index ⟨symbols, 0, 0⟩ (spell values ++ rest) =
      scanTail start (index + values.length) ⟨symbols ++ scanned values, 0, 0⟩ rest := by
  induction values generalizing index symbols with
  | nil => simp [spell, scanned]
  | cons value values ih =>
    have hvalue : value < 64 := h value List.mem_cons_self
    have hstep : scanTail start index ⟨symbols, 0, 0⟩ (spell (value :: values) ++ rest) =
        scanTail start (index + 1) ⟨symbols ++ [((symbol value).toUInt8, value)], 0, 0⟩
          (spell values ++ rest) := by
      rw [spell, List.map_cons, List.cons_append, scanTail, if_neg (symbol_ne_pad value hvalue),
        if_neg (Nat.lt_irrefl 0)]
      simp only [valueAt_symbol _ hvalue, spell]
    rw [hstep, ih _ _ fun v hv => h v (List.mem_cons_of_mem value hv), List.length_cons, scanned,
      scanned, List.map_cons, List.append_assoc, List.singleton_append, Nat.add_assoc,
      Nat.add_comm 1]

/-- Padding after two places is only counted. -/
theorem scanTail_replicate_pad (start : Nat) {index : Nat} (h : 2 ≤ index) (tail : Tail)
    (n : Nat) :
    ∃ padAt, scanTail start index tail (List.replicate n pad) =
      .ok ⟨tail.symbols, padAt, tail.padding + n⟩ := by
  induction n generalizing index tail with
  | zero => exact ⟨tail.padAt, rfl⟩
  | succ n ih =>
    rw [List.replicate_succ, scanTail, if_pos rfl, if_neg (Nat.not_lt_of_le h)]
    obtain ⟨padAt, hrest⟩ := ih (Nat.le_succ_of_le h)
      ⟨tail.symbols, if tail.padding = 0 then start + index else tail.padAt, tail.padding + 1⟩
    refine ⟨padAt, hrest.trans ?_⟩
    rw [Nat.add_assoc, Nat.add_comm 1]

/-- **The last group is read as its symbols**, without the padding that fills it up. -/
theorem decodeTail_spell (start : Nat) {values : List Nat} (h : ∀ value ∈ values, value < 64)
    (htwo : 2 ≤ values.length) {n : Nat} (hfull : (n + values.length) % 4 = 0) :
    decodeTail start (spell values ++ List.replicate n pad) =
      tailBytes start (scanned values) := by
  have hlen : (scanned values).length = values.length := List.length_map _
  have hplaces : 2 ≤ 0 + values.length := by omega
  obtain ⟨padAt, hpad⟩ := scanTail_replicate_pad start hplaces ⟨[] ++ scanned values, 0, 0⟩ n
  have hscan : scanTail start 0 ⟨[], 0, 0⟩ (spell values ++ List.replicate n pad) =
      .ok ⟨scanned values, padAt, n⟩ := by
    rw [scanTail_spell start 0 [] h, hpad, List.nil_append, Nat.zero_add]
  simp only [decodeTail, hscan, bind, Except.bind, hlen, if_neg (Nat.not_lt_of_le htwo), hfull,
    ne_eq, not_true_eq_false, if_false]

/-! ## Whole texts -/

theorem decodeTail_one (start : Nat) (a : UInt8) :
    decodeTail start ((encode [a]).map Char.toUInt8) = .ok [a] := by
  have ha := a.toNat_lt
  have hvalues : ∀ value ∈ [a.toNat * 65536 / 262144, a.toNat * 65536 / 4096 % 64],
      value < 64 := by
    simp only [List.forall_mem_cons, List.not_mem_nil, false_implies, implies_true, and_true]
    omega
  have hfull : (2 + 2) % 4 = 0 := rfl
  have hbits : (a.toNat * 65536 / 262144 * 64 + a.toNat * 65536 / 4096 % 64) / 16 = a.toNat := by
    omega
  refine (decodeTail_spell start hvalues (Nat.le_refl 2) hfull).trans ?_
  rw [scanned, List.map_cons, List.map_singleton, tailBytes, if_pos (by omega), hbits,
    UInt8.ofNat_toNat]

theorem decodeTail_two (start : Nat) (a b : UInt8) :
    decodeTail start ((encode [a, b]).map Char.toUInt8) = .ok [a, b] := by
  have ha := a.toNat_lt
  have hb := b.toNat_lt
  obtain ⟨n, hn⟩ : ∃ n, n = a.toNat * 65536 + b.toNat * 256 := ⟨_, rfl⟩
  have hvalues : ∀ value ∈ [n / 262144, n / 4096 % 64, n / 64 % 64], value < 64 := by
    simp only [List.forall_mem_cons, List.not_mem_nil, false_implies, implies_true, and_true]
    omega
  have htwo : 2 ≤ 3 := by decide
  have hfull : (1 + 3) % 4 = 0 := rfl
  have hbits : (n / 262144 * 4096 + n / 4096 % 64 * 64 + n / 64 % 64) / 4 = n / 256 := by
    omega
  have hhigh : n / 256 / 256 = a.toNat := by omega
  have hlow : n / 256 % 256 = b.toNat := by omega
  have htext : (encode [a, b]).map Char.toUInt8 =
      spell [n / 262144, n / 4096 % 64, n / 64 % 64] ++ List.replicate 1 pad := by
    rw [hn]
    rfl
  rw [htext, decodeTail_spell start hvalues htwo hfull, scanned, List.map_cons, List.map_cons,
    List.map_singleton, tailBytes, if_pos (by omega), hbits]
  show Except.ok [UInt8.ofNat (n / 256 / 256), UInt8.ofNat (n / 256 % 256)] = Except.ok [a, b]
  rw [hhigh, hlow, UInt8.ofNat_toNat, UInt8.ofNat_toNat]

/-- Three bytes, cut into four values of six bits and put together again. -/
theorem bytes_of_values (a b c : UInt8) :
    let n := a.toNat * 65536 + b.toNat * 256 + c.toNat
    let m := n / 262144 * 262144 + n / 4096 % 64 * 4096 + n / 64 % 64 * 64 + n % 64
    [UInt8.ofNat (m / 65536), UInt8.ofNat (m / 256 % 256), UInt8.ofNat (m % 256)] = [a, b, c] := by
  intro n m
  have ha := a.toNat_lt
  have hb := b.toNat_lt
  have hc := c.toNat_lt
  have hm : m = n := by omega
  have hhigh : m / 65536 = a.toNat := by omega
  have hmid : m / 256 % 256 = b.toNat := by omega
  have hlow : m % 256 = c.toNat := by omega
  rw [hhigh, hmid, hlow, UInt8.ofNat_toNat, UInt8.ofNat_toNat, UInt8.ofNat_toNat]

theorem values_lt (a b c : UInt8) :
    let n := a.toNat * 65536 + b.toNat * 256 + c.toNat
    ∀ value ∈ [n / 262144, n / 4096 % 64, n / 64 % 64, n % 64], value < 64 := by
  intro n
  have ha := a.toNat_lt
  have hb := b.toNat_lt
  have hc := c.toNat_lt
  simp only [List.forall_mem_cons, List.not_mem_nil, false_implies, implies_true, and_true]
  omega

theorem decodeTail_three (start : Nat) (a b c : UInt8) :
    decodeTail start ((encode [a, b, c]).map Char.toUInt8) = .ok [a, b, c] := by
  have htwo : 2 ≤ 4 := by decide
  have hfull : (0 + 4) % 4 = 0 := rfl
  refine (decodeTail_spell start (values_lt a b c) htwo hfull).trans ?_
  exact congrArg Except.ok (bytes_of_values a b c)

theorem encode_ne_nil {data : Bytes} (h : data ≠ []) : encode data ≠ [] := by
  rw [ne_eq, ← List.length_eq_zero_iff, length_encode]
  have hpos := List.length_pos_iff.mpr h
  omega

theorem decodeFrom_encode (start : Nat) (data : Bytes) :
    decodeFrom start ((encode data).map Char.toUInt8) = .ok data := by
  fun_induction encode data generalizing start with
  | case1 => rfl
  | case2 a n => exact decodeTail_one start a
  | case3 a b n => exact decodeTail_two start a b
  | case4 a b c rest n ih =>
    by_cases hrest : rest = []
    · subst hrest
      exact decodeTail_three start a b c
    obtain ⟨e, text, htext⟩ := List.exists_cons_of_ne_nil (encode_ne_nil hrest)
    obtain ⟨hs, ht, hu, hv, -⟩ := by
      simpa only [List.forall_mem_cons] using values_lt a b c
    have hgroup := (quadBytes_symbol start hs ht hu hv).trans
      (congrArg Except.ok (bytes_of_values a b c))
    have hih := ih (start + 4)
    rw [htext, List.map_cons] at hih
    rw [htext, List.map_cons, List.map_cons, List.map_cons, List.map_cons, List.map_cons,
      decodeFrom, hgroup, hih]
    rfl

/-- **The symbols of a byte string read back as it.** -/
theorem decode_encode (data : Bytes) : decode ((encode data).map Char.toUInt8) = .ok data := by
  have hlen : ((encode data).map Char.toUInt8).length % 4 ≠ 1 := by
    rw [List.length_map, length_encode]
    omega
  rw [decode]
  split
  · rw [decide_eq_false hlen, Bool.false_and, if_neg Bool.false_ne_true, decodeFrom_encode]
  · rename_i hlast
    rw [List.getLast?_eq_none_iff, List.map_eq_nil_iff] at hlast
    obtain rfl : data = [] := by_contra fun hne => encode_ne_nil hne hlast
    rfl

end Strongbox.Base64
