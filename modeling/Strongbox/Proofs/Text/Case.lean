import Mathlib.Data.List.Forall2
import Strongbox.Text.Token

/-!
# Letter case

Only the letters of ASCII have two cases here. Two texts that differ in the case of such letters at
most are those that agree once both are in lower case, and likewise in upper case.

## Main definitions

* `Text.Recased`: a character in one of its two cases
* `Text.SameButCase`: texts that differ in the case of ASCII letters at most

## Main results

* `Text.Recased.eq_or_isAlpha`: letters are all that has two cases
* `Text.sameButCase_iff_toLower`, `Text.sameButCase_iff_toUpper`: such texts agree in either case
-/

namespace Strongbox.Text

/-- A character in lower or in upper case. One that is no ASCII letter is itself in both. -/
def Recased (c d : Char) : Prop := d = c.toLower ∨ d = c.toUpper

variable {c d : Char}

theorem isAlpha_iff :
    c.isAlpha ↔ 65 ≤ c.toNat ∧ c.toNat ≤ 90 ∨ 97 ≤ c.toNat ∧ c.toNat ≤ 122 := by
  have hupper : c.isUpper ↔ 65 ≤ c.toNat ∧ c.toNat ≤ 90 := decide_eq_true_iff
  have hlower : c.isLower ↔ 97 ≤ c.toNat ∧ c.toNat ≤ 122 :=
    Bool.and_eq_true_iff.trans (and_congr decide_eq_true_iff decide_eq_true_iff)
  show (c.isUpper || c.isLower) = true ↔ _
  rw [Bool.or_eq_true, hupper, hlower]

theorem toNat_toLower (c : Char) :
    c.toLower.toNat = if 65 ≤ c.toNat ∧ c.toNat ≤ 90 then c.toNat + 32 else c.toNat := by
  by_cases h : 65 ≤ c.toNat ∧ c.toNat ≤ 90
  · have hlower : c.toLower = ⟨c.val + ('a'.val - 'A'.val), _⟩ := dif_pos h
    have hdiff : ('a'.val - 'A'.val).toNat = 32 := by decide
    have hsum : (c.val + ('a'.val - 'A'.val)).toNat = c.toNat + 32 := by
      rw [UInt32.toNat_add, Char.toNat_val, hdiff]
      omega
    rw [if_pos h, hlower]
    exact hsum
  · have hlower : c.toLower = c := dif_neg h
    rw [if_neg h, hlower]

theorem toNat_toUpper (c : Char) :
    c.toUpper.toNat = if 97 ≤ c.toNat ∧ c.toNat ≤ 122 then c.toNat - 32 else c.toNat := by
  by_cases h : 97 ≤ c.toNat ∧ c.toNat ≤ 122
  · have hupper : c.toUpper = ⟨c.val + ('A'.val - 'a'.val), _⟩ := dif_pos h
    have hdiff : ('A'.val - 'a'.val).toNat = 2 ^ 32 - 32 := by decide
    have hsum : (c.val + ('A'.val - 'a'.val)).toNat = c.toNat - 32 := by
      rw [UInt32.toNat_add, Char.toNat_val, hdiff]
      omega
    rw [if_pos h, hupper]
    exact hsum
  · have hupper : c.toUpper = c := dif_neg h
    rw [if_neg h, hupper]

/-- Letters are all that has two cases. -/
theorem Recased.eq_or_isAlpha (h : Recased c d) : d = c ∨ c.isAlpha ∧ d.isAlpha := by
  simp only [Recased, isAlpha_iff, ← Char.toNat_inj, toNat_toLower, toNat_toUpper] at h ⊢
  grind

theorem recased_iff_toLower : Recased c d ↔ c.toLower = d.toLower := by
  simp only [Recased, ← Char.toNat_inj, toNat_toLower, toNat_toUpper]
  grind

theorem recased_iff_toUpper : Recased c d ↔ c.toUpper = d.toUpper := by
  simp only [Recased, ← Char.toNat_inj, toNat_toLower, toNat_toUpper]
  grind

theorem Recased.symm (h : Recased c d) : Recased d c :=
  recased_iff_toLower.mpr (recased_iff_toLower.mp h).symm

/-- Texts that differ in the case of ASCII letters at most. -/
def SameButCase (cs ds : List Char) : Prop := List.Forall₂ Recased cs ds

variable {cs ds : List Char}

/-- A text is matched place by place if the places are told by what a function makes of them. -/
theorem forall₂_iff_map_eq {R : Char → Char → Prop} {f : Char → Char}
    (hR : ∀ {c d}, R c d ↔ f c = f d) : List.Forall₂ R cs ds ↔ cs.map f = ds.map f := by
  have hrel : R = fun c d => f c = f d := by
    funext c d
    exact propext hR
  rw [hrel, ← List.forall₂_map_right_iff, ← List.forall₂_map_left_iff, List.forall₂_eq_eq_eq]

theorem sameButCase_iff_toLower :
    SameButCase cs ds ↔ cs.map Char.toLower = ds.map Char.toLower :=
  forall₂_iff_map_eq recased_iff_toLower

theorem sameButCase_iff_toUpper :
    SameButCase cs ds ↔ cs.map Char.toUpper = ds.map Char.toUpper :=
  forall₂_iff_map_eq recased_iff_toUpper

end Strongbox.Text
