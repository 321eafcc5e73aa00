/-!
# Blank characters

The characters of the Unicode property White_Space, and a text without those at its ends.

## Main definitions

* `isBlank`: the characters of White_Space
* `trimChars`, `trim`: a text without the blank characters at its two ends

## Main results

* `trimChars_append_blank`, `trimChars_blank_append`: blanks at the ends do not matter
* `trimChars_eq_self`: nothing else is left out
* `exists_trimChars`: a text is what is left of it between blanks
-/

namespace Strongbox.Text

/-- The characters of the Unicode property White_Space. -/
def isBlank (c : Char) : Bool :=
  (9 ≤ c.toNat && c.toNat ≤ 13) || c.toNat == 0x20 || c.toNat == 0x85 || c.toNat == 0xA0 ||
    c.toNat == 0x1680 || (0x2000 ≤ c.toNat && c.toNat ≤ 0x200A) || c.toNat == 0x2028 ||
    c.toNat == 0x2029 || c.toNat == 0x202F || c.toNat == 0x205F || c.toNat == 0x3000

/-- A text without the blank characters at its two ends. -/
def trimChars (cs : List Char) : List Char :=
  ((cs.dropWhile isBlank).reverse.dropWhile isBlank).reverse

/-- A string without the blank characters at its two ends. -/
def trim (s : String) : String := String.ofList (trimChars s.toList)

private theorem dropWhile_append_of_all {bs : List Char} (h : ∀ c ∈ bs, isBlank c)
    (cs : List Char) : (bs ++ cs).dropWhile isBlank = cs.dropWhile isBlank := by
  induction bs with
  | nil => rfl
  | cons b bs ih =>
    have hb := h b (by simp)
    simp only [List.cons_append, List.dropWhile_cons, hb, if_true]
    exact ih fun c hc => h c (by simp [hc])

/-- Blanks in front do not matter. -/
theorem trimChars_blank_append {bs : List Char} (h : ∀ c ∈ bs, isBlank c) (cs : List Char) :
    trimChars (bs ++ cs) = trimChars cs := by
  simp [trimChars, dropWhile_append_of_all h]

/-- Blanks behind do not matter. -/
theorem trimChars_append_blank {bs : List Char} (h : ∀ c ∈ bs, isBlank c) (cs : List Char) :
    trimChars (cs ++ bs) = trimChars cs := by
  have hr : ∀ c ∈ bs.reverse, isBlank c := by simpa using h
  simp only [trimChars]
  induction cs with
  | nil =>
    have : (bs.dropWhile isBlank) = [] := by
      simpa using dropWhile_append_of_all h []
    simp [this]
  | cons c cs ih =>
    by_cases hc : isBlank c
    · simpa [List.dropWhile_cons, hc] using ih
    · simp only [List.cons_append, List.dropWhile_cons, hc, Bool.false_eq_true, if_false,
        List.reverse_cons, List.reverse_append, List.append_assoc]
      rw [dropWhile_append_of_all hr]

private theorem dropWhile_eq_self_of_none {cs : List Char} (h : ∀ c ∈ cs, isBlank c = false) :
    cs.dropWhile isBlank = cs := by
  cases cs with
  | nil => rfl
  | cons c cs => rw [List.dropWhile_cons_of_neg (by simp [h c])]

/-- A text without blanks is left as it is. -/
theorem trimChars_eq_self {cs : List Char} (h : ∀ c ∈ cs, isBlank c = false) :
    trimChars cs = cs := by
  have hreverse : ∀ c ∈ cs.reverse, isBlank c = false := by simpa using h
  rw [trimChars, dropWhile_eq_self_of_none h, dropWhile_eq_self_of_none hreverse,
    List.reverse_reverse]

/-- A text in three pieces, of which the outer ones are blank. -/
theorem exists_trimChars (cs : List Char) : ∃ before after, (∀ c ∈ before, isBlank c = true) ∧
    (∀ c ∈ after, isBlank c = true) ∧ cs = before ++ trimChars cs ++ after := by
  let inner := cs.dropWhile isBlank
  refine ⟨cs.takeWhile isBlank, (inner.reverse.takeWhile isBlank).reverse,
    List.all_eq_true.mp List.all_takeWhile, ?_, ?_⟩
  · intro c hc
    exact List.all_eq_true.mp List.all_takeWhile c (List.mem_reverse.mp hc)
  · have hinner : trimChars cs ++ (inner.reverse.takeWhile isBlank).reverse = inner := by
      rw [trimChars, ← List.reverse_append, List.takeWhile_append_dropWhile,
        List.reverse_reverse]
    rw [List.append_assoc, hinner, List.takeWhile_append_dropWhile]

end Strongbox.Text
