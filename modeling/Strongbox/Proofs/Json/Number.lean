import Strongbox.Json.Number
import Strongbox.Proofs.Text.Ascii

/-!
# Whole numbers read back as they are written

A whole number below `2 ^ 64` is written with its decimal digits, none of them to spare, and is
read back as it is, whatever element or member or end of one comes after it.

## Main definitions

* `Json.digitBytes`: a whole number as it is written
* `Json.Closes`: what can come after a value

## Main results

* `Json.decimal_digitBytes`: what the digits write
* `Json.number_digitBytes`: a whole number is read back
-/

namespace Strongbox.Json

/-! ## Digits -/

/-- The decimal digits of a whole number. -/
def digitBytes (n : Nat) : Bytes := (Nat.toDigits 10 n).map Char.toUInt8

theorem isDigit_toUInt8 {c : Char} (h : c.isDigit) :
    isDigit c.toUInt8 ∧ c.toUInt8.toNat = c.toNat := by
  obtain ⟨hlow, hhigh⟩ := Char.isDigit_iff_toNat.mp h
  have htoNat : c.toUInt8.toNat = c.toNat :=
    UInt8.toNat_ofNat_of_lt' (Nat.lt_of_le_of_lt hhigh (by decide))
  refine ⟨?_, htoNat⟩
  rw [isDigit, Bool.and_eq_true, decide_eq_true_eq, decide_eq_true_eq, UInt8.le_iff_toNat_le,
    UInt8.le_iff_toNat_le, htoNat]
  exact ⟨hlow, hhigh⟩

theorem isDigit_of_mem_toDigits {n : Nat} {c : Char} (h : c ∈ Nat.toDigits 10 n) : c.isDigit :=
  Nat.isDigit_of_mem_toDigits (by decide) (by decide) h

theorem isDigit_of_mem_digitBytes {n : Nat} {b : UInt8} (h : b ∈ digitBytes n) : isDigit b := by
  obtain ⟨c, hc, rfl⟩ := List.mem_map.mp h
  exact (isDigit_toUInt8 (isDigit_of_mem_toDigits hc)).1

theorem digitBytes_ne_nil (n : Nat) : digitBytes n ≠ [] := fun h =>
  Nat.toDigits_ne_nil (List.map_eq_nil_iff.mp h)

/-- A whole number is written with its digits. -/
theorem encode_toString (n : Nat) : Text.Utf8.encode (toString n) = digitBytes n := by
  rw [Nat.toString_eq_ofList_toDigits, digitBytes]
  refine Text.Utf8.encode_ofList_of_ascii fun c hc => ?_
  obtain ⟨_, hhigh⟩ := Char.isDigit_iff_toNat.mp (isDigit_of_mem_toDigits hc)
  exact Nat.lt_of_le_of_lt hhigh (by decide)

/-- Reading the bytes of digits is reading the characters. -/
theorem decimal_map {cs : List Char} (h : ∀ c ∈ cs, c.isDigit) :
    decimal (cs.map Char.toUInt8) = Nat.ofDigitChars 10 cs 0 := by
  have hfold (start : Nat) :
      (cs.map Char.toUInt8).foldl (fun n b => 10 * n + (b.toNat - 0x30)) start =
        cs.foldl (fun n c => 10 * n + (c.toNat - '0'.toNat)) start := by
    induction cs generalizing start with
    | nil => rfl
    | cons c cs ih =>
      obtain ⟨hc, hcs⟩ := List.forall_mem_cons.mp h
      rw [List.map_cons, List.foldl_cons, List.foldl_cons, (isDigit_toUInt8 hc).2, ih hcs]
      rfl
  rw [decimal, hfold, ← Nat.ofDigitChars_eq_foldl]

/-- The digits write the number they were made of. -/
theorem decimal_digitBytes (n : Nat) : decimal (digitBytes n) = n := by
  rw [digitBytes, decimal_map fun c => isDigit_of_mem_toDigits, Nat.ofDigitChars_ten_toDigits]

/-- No digit in front is to spare. -/
theorem digitBytes_eq_cons {n : Nat} (h : 0 < n) :
    ∃ b rest, digitBytes n = b :: rest ∧ b ≠ 0x30 := by
  have hlast : ∀ n < 10, 0 < n → (Nat.digitChar n).toUInt8 ≠ 0x30 := by decide
  induction n using Nat.strongRecOn with
  | ind n ih =>
    rcases Nat.lt_or_ge n 10 with hlt | hge
    · refine ⟨(Nat.digitChar n).toUInt8, [], ?_, hlast n hlt h⟩
      rw [digitBytes, Nat.toDigits_of_lt_base hlt]
      rfl
    · obtain ⟨b, rest, heq, hb⟩ := ih (n / 10) (by omega) (by omega)
      refine ⟨b, rest ++ [(Nat.digitChar (n % 10)).toUInt8], ?_, hb⟩
      rw [digitBytes, Nat.toDigits_of_base_le (by decide) hge, List.map_append, ← digitBytes, heq]
      rfl

/-! ## Reading -/

/-- The bytes that end what stands in front of them in an array or object. -/
def closers : Bytes := [comma, closeBracket, closeBrace]

/-- What can come after a value: nothing, white space, a comma, or the end of an array or object. -/
def Closes (rest : Bytes) : Prop :=
  ∀ b, rest.head? = some b → isSpace b = true ∨ b ∈ closers

/-- Nothing that can come after a number goes on with it. -/
theorem Closes.ne {rest : Bytes} (h : Closes rest) {b : UInt8} (hspace : isSpace b = false)
    (hb : b ∉ closers) : rest.head? ≠ some b := by
  intro hhead
  rcases h b hhead with h' | h'
  · exact absurd h' (by rw [hspace]; decide)
  · exact hb h'

theorem isSpace_iff {b : UInt8} :
    isSpace b = true ↔ b = 0x20 ∨ b = 0x09 ∨ b = 0x0A ∨ b = 0x0D := by
  simp [isSpace, or_assoc]

theorem isDigit_of_mem_closers {b : UInt8} (h : b ∈ closers) : isDigit b = false := by
  rw [closers, List.mem_cons, List.mem_cons, List.mem_singleton] at h
  rcases h with rfl | rfl | rfl <;> rfl

theorem Closes.not_digit {rest : Bytes} (h : Closes rest) : rest.head?.any isDigit = false := by
  cases hb : rest.head? with
  | none => rfl
  | some b =>
    rcases h b hb with h' | h'
    · rcases isSpace_iff.mp h' with rfl | rfl | rfl | rfl <;> rfl
    · exact isDigit_of_mem_closers h'

theorem digits_append {ds rest : Bytes} (hds : ∀ b ∈ ds, isDigit b)
    (hrest : rest.head?.any isDigit = false) : digits (ds ++ rest) = (ds, rest) := by
  have htake : rest.takeWhile isDigit = [] ∧ rest.dropWhile isDigit = rest := by
    cases rest with
    | nil => exact ⟨rfl, rfl⟩
    | cons b rest =>
      have hb : isDigit b = false := hrest
      simp [hb]
  rw [digits, List.takeWhile_append_of_pos hds, List.dropWhile_append_of_pos hds, htake.1, htake.2,
    List.append_nil]

/-- All digits of a number are read, and nothing after them. -/
theorem wholeDigits_digitBytes (atEnd : Fault) (n : Nat) {rest : Bytes} (hrest : Closes rest) :
    wholeDigits atEnd (digitBytes n ++ rest) = .ok (digitBytes n, rest) := by
  rcases Nat.eq_zero_or_pos n with rfl | hpos
  · have hzero : digitBytes 0 = [0x30] := by decide
    rw [hzero, List.singleton_append, wholeDigits, if_pos rfl, if_neg (by simp [hrest.not_digit])]
  · obtain ⟨b, ds, heq, hb⟩ := digitBytes_eq_cons hpos
    have hds : ∀ b ∈ digitBytes n, isDigit b := fun b => isDigit_of_mem_digitBytes
    rw [heq] at hds ⊢
    rw [List.cons_append, wholeDigits, if_neg hb, if_pos (hds b List.mem_cons_self),
      ← List.cons_append, digits_append hds hrest.not_digit]

theorem fractionDigits_of_ne (atEnd : Fault) {rest : Bytes} (h : rest.head? ≠ some 0x2E) :
    fractionDigits atEnd rest = .ok (none, rest) :=
  fractionDigits.eq_2 atEnd rest fun _ hs => h (congrArg List.head? hs)

theorem exponentDigits_closes (atEnd : Fault) {rest : Bytes} (h : Closes rest) :
    exponentDigits atEnd rest = .ok (none, rest) := by
  cases rest with
  | nil => rfl
  | cons b rest =>
    have hb : ¬(b = 0x65 ∨ b = 0x45) := by
      rintro (rfl | rfl)
      · exact h.ne (by decide) (by decide) rfl
      · exact h.ne (by decide) (by decide) rfl
    rw [exponentDigits, if_neg hb]

theorem minusSign_of_digit {b : UInt8} (hb : isDigit b = true) (rest : Bytes) :
    minusSign (b :: rest) = (false, b :: rest) := by
  refine minusSign.eq_2 _ fun s hs => ?_
  obtain ⟨rfl, -⟩ := List.cons.inj hs
  exact absurd hb (by decide)

theorem minusSign_digitBytes (n : Nat) (rest : Bytes) :
    minusSign (digitBytes n ++ rest) = (false, digitBytes n ++ rest) := by
  cases hds : digitBytes n with
  | nil => exact absurd hds (digitBytes_ne_nil n)
  | cons b ds => exact minusSign_of_digit (isDigit_of_mem_digitBytes (hds ▸ List.mem_cons_self)) _

/-- **A whole number below `2 ^ 64` is read back as it is written.** -/
theorem number_digitBytes {n : Nat} (hn : n < UInt64.size) {rest : Bytes} (hrest : Closes rest) :
    number (digitBytes n ++ rest) = .ok (.natural n, rest) := by
  have hnumeral : numeral .endInValue (digitBytes n ++ rest) =
      .ok (⟨false, digitBytes n, none, none⟩, rest) := by
    rw [numeral, minusSign_digitBytes]
    simp only [unsignedNumeral, bind, Except.bind, wholeDigits_digitBytes _ n hrest,
      fractionDigits_of_ne _ (hrest.ne rfl (by decide)), exponentDigits_closes _ hrest]
  have hvalue : Numeral.value ⟨false, digitBytes n, none, none⟩ = .ok (.natural n) := by
    simp [Numeral.value, decimal_digitBytes, hn]
  simp only [number, hnumeral, bind, Except.bind, hvalue]

end Strongbox.Json
