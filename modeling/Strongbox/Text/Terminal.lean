/-!
# Text for a terminal

A terminal obeys some control characters. A text that is shown on one spells them out, so that it
can neither move the cursor nor take lines away.

## Main definitions

* `Terminal.isObeyed`: the control characters that are spelled out
* `Terminal.inert`: a text with these spelled out

## Main results

* `Terminal.isObeyed_of_mem_inert`: none of them is left
-/

namespace Strongbox.Text.Terminal

/-- The control characters that are spelled out: bell, backspace, form feed, escape and delete, and
those from U+0080 to U+009F. -/
def isObeyed (c : Char) : Bool :=
  c = '\x07' || c = '\x08' || c = '\x0c' || c = '\x1b' || c = '\x7f' ||
    (0x80 ≤ c.toNat && c.toNat ≤ 0x9F)

/-- A character as it is shown. Those that are spelled out are written by their number in
hexadecimal, with two digits in ASCII and between braces beyond it. -/
def spell (c : Char) : List Char :=
  if isObeyed c then
    let digits := Nat.toDigits 16 c.toNat
    if c.toNat < 0x10 then '\\' :: 'x' :: '0' :: digits
    else if c.toNat < 0x80 then '\\' :: 'x' :: digits
    else '\\' :: 'u' :: '\x7b' :: digits ++ ['\x7d']
  else [c]

/-- A text as it is shown. -/
def inert (s : String) : String := String.ofList (s.toList.flatMap spell)

theorem toNat_le_of_isObeyed {c : Char} (h : isObeyed c) : c.toNat ≤ 0x9F := by
  simp only [isObeyed, Bool.or_eq_true, Bool.and_eq_true, decide_eq_true_eq] at h
  rcases h with ((((rfl | rfl) | rfl) | rfl) | rfl) | h
  · decide
  · decide
  · decide
  · decide
  · decide
  · exact h.2

private theorem all_spell_ofNat :
    ((List.range 0xA0).all fun n => (spell (Char.ofNat n)).all (!isObeyed ·)) = true := by
  decide +kernel

theorem isObeyed_of_mem_spell {c d : Char} (h : d ∈ spell c) : isObeyed d = false := by
  by_cases hc : isObeyed c
  · have hn : c.toNat < 0xA0 := Nat.lt_succ_of_le (toNat_le_of_isObeyed hc)
    have := List.all_eq_true.1 all_spell_ofNat c.toNat (List.mem_range.2 hn)
    rw [Char.ofNat_toNat] at this
    simpa using List.all_eq_true.1 this d h
  · rw [spell, if_neg hc] at h
    rw [List.mem_singleton.1 h]
    simpa using hc

/-- No character that a terminal obeys is left. -/
theorem isObeyed_of_mem_inert {s : String} {c : Char} (h : c ∈ (inert s).toList) :
    isObeyed c = false := by
  rw [inert, String.toList_ofList, List.mem_flatMap] at h
  obtain ⟨d, _, hd⟩ := h
  exact isObeyed_of_mem_spell hd

end Strongbox.Text.Terminal
