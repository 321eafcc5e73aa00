import Mathlib.Data.List.TakeWhile
import Strongbox.Proofs.Text.Case

/-!
# Texts typed in another way

A name may be typed with its letters in another case, with blanks around it, and in whatever other
ways the names of its sort allow. What the blanks stand around, the token, is told from them by its
ends.

## Main definitions

* `Text.Retyped`: a text that is another one typed in another way
* `Text.SameButDashes`: texts with dashes in the places of underscores or the other way round
* `Text.Dashed`, `Text.TokenDashed`: a text, and a token, with dashes put in

## Main results

* `Text.forall₂_trimChars`: a token ends where it did with its characters in another case, or with
  dashes for underscores
* `Text.TokenDashed.trimChars_eq`: dashes put into a token, its ends included, belong to it
* `Text.dashed_of_filter`: a text is its characters other than dashes with dashes put in
-/

namespace Strongbox.Text

variable {cs ds : List Char} {c d : Char}

/-! ## Characters -/

/-- A character of ASCII that is not blank. -/
def Plain (c : Char) : Prop := c.toNat < 128 ∧ isBlank c = false

theorem plain_of_isAlpha (h : c.isAlpha) : Plain c := by
  have hcode := isAlpha_iff.mp h
  refine ⟨by omega, ?_⟩
  simp only [isBlank, Bool.or_eq_false_iff, Bool.and_eq_false_iff, decide_eq_false_iff_not,
    beq_eq_false_iff_ne]
  omega

theorem Recased.isBlank_eq (h : Recased c d) : isBlank d = isBlank c := by
  rcases h.eq_or_isAlpha with rfl | ⟨hc, hd⟩
  · rfl
  · rw [(plain_of_isAlpha hc).2, (plain_of_isAlpha hd).2]

theorem Recased.plain (h : Recased c d) (hd : Plain d) : Plain c := by
  rcases h.eq_or_isAlpha with rfl | ⟨hc, -⟩
  · exact hd
  · exact plain_of_isAlpha hc

theorem plain_of_map {f : Char → Char} (hf : ∀ c, Plain (f c) → Plain c)
    (h : ∀ c ∈ cs.map f, Plain c) : ∀ c ∈ cs, Plain c := by
  intro c hc
  exact hf c (h (f c) (List.mem_map_of_mem hc))

theorem plain_of_toLower (c : Char) (h : Plain c.toLower) : Plain c := Recased.plain (.inl rfl) h

theorem plain_of_toUpper (c : Char) (h : Plain c.toUpper) : Plain c := Recased.plain (.inr rfl) h

/-! ## Tokens -/

theorem forall₂_dropWhile {R : Char → Char → Prop} (hR : ∀ {c d}, R c d → isBlank d = isBlank c)
    (h : List.Forall₂ R cs ds) : List.Forall₂ R (cs.dropWhile isBlank) (ds.dropWhile isBlank) := by
  induction h with
  | nil => exact .nil
  | @cons c d cs ds hcd htail ih =>
    rw [List.dropWhile_cons, List.dropWhile_cons, hR hcd]
    split
    · exact ih
    · exact .cons hcd htail

/-- Where a token ends does not change with its characters, as long as blanks stay blanks and others
stay others. -/
theorem forall₂_trimChars {R : Char → Char → Prop} (hR : ∀ {c d}, R c d → isBlank d = isBlank c)
    (h : List.Forall₂ R cs ds) : List.Forall₂ R (trimChars cs) (trimChars ds) := by
  have hback := List.forall₂_reverse_iff.mpr (forall₂_dropWhile hR h)
  exact List.forall₂_reverse_iff.mpr (forall₂_dropWhile hR hback)

theorem trimChars_between {before after : List Char} (hbefore : ∀ c ∈ before, isBlank c)
    (hafter : ∀ c ∈ after, isBlank c) (cs : List Char) :
    trimChars (before ++ cs ++ after) = trimChars cs := by
  rw [trimChars_append_blank hafter, trimChars_blank_append hbefore]

/-- A text is a token if there are no blanks to leave out at either end. -/
theorem trimChars_eq_self_iff : trimChars cs = cs ↔
    cs.dropWhile isBlank = cs ∧ cs.reverse.dropWhile isBlank = cs.reverse := by
  constructor
  · intro h
    have hfront : cs.dropWhile isBlank = cs := by
      refine (List.dropWhile_suffix _).eq_of_length_le ?_
      calc cs.length = (trimChars cs).length := by rw [h]
        _ ≤ (cs.dropWhile isBlank).reverse.length := by
          rw [trimChars, List.length_reverse]
          exact List.length_dropWhile_le _ _
        _ = (cs.dropWhile isBlank).length := List.length_reverse
    rw [trimChars, hfront] at h
    exact ⟨hfront, List.reverse_eq_iff.mp h⟩
  · rintro ⟨hfront, hback⟩
    rw [trimChars, hfront, hback, List.reverse_reverse]

/-- Case does not matter to where a token ends. -/
theorem SameButCase.trimChars (h : SameButCase cs ds) :
    SameButCase (trimChars cs) (trimChars ds) :=
  forall₂_trimChars Recased.isBlank_eq h

theorem sameButCase_map_toLower (cs : List Char) : SameButCase (cs.map Char.toLower) cs :=
  List.forall₂_map_left_iff.mpr (List.forall₂_same.mpr fun _ _ => Recased.symm (.inl rfl))

theorem sameButCase_map_toUpper (cs : List Char) : SameButCase (cs.map Char.toUpper) cs :=
  List.forall₂_map_left_iff.mpr (List.forall₂_same.mpr fun _ _ => Recased.symm (.inr rfl))

/-! ## Dashes -/

/-- The same character, or both of them a dash or an underscore. -/
def DashOrSame (c d : Char) : Prop := d = c ∨ c ∈ ['_', '-'] ∧ d ∈ ['_', '-']

/-- Texts with dashes in the places of underscores or the other way round. -/
def SameButDashes (cs ds : List Char) : Prop := List.Forall₂ DashOrSame cs ds

/-- A dash for an underscore. -/
def toDash (c : Char) : Char := if c = '_' then '-' else c

theorem dashOrSame_iff : DashOrSame c d ↔ toDash c = toDash d := by
  simp only [DashOrSame, toDash, List.mem_cons, List.not_mem_nil, or_false]
  grind

theorem sameButDashes_iff : SameButDashes cs ds ↔ cs.map toDash = ds.map toDash :=
  forall₂_iff_map_eq dashOrSame_iff

theorem sameButDashes_map_toDash (cs : List Char) : SameButDashes (cs.map toDash) cs := by
  have hdash (c : Char) : toDash (toDash c) = toDash c := by
    simp only [toDash]
    grind
  rw [sameButDashes_iff, List.map_map]
  exact List.map_congr_left fun c _ => hdash c

/-- Nor do dashes and underscores, as they are not blank. -/
theorem SameButDashes.trimChars (h : SameButDashes cs ds) :
    SameButDashes (trimChars cs) (trimChars ds) := by
  refine forall₂_trimChars ?_ h
  rintro c d (rfl | ⟨hc, hd⟩)
  · rfl
  · have hblank : ∀ c ∈ ['_', '-'], isBlank c = false := by simp [isBlank]
    rw [hblank c hc, hblank d hd]

/-- Letters may be in lower case besides. -/
theorem SameButDashes.map_toLower (h : SameButDashes cs ds) :
    SameButDashes (cs.map Char.toLower) (ds.map Char.toLower) := by
  rw [SameButDashes, List.forall₂_map_left_iff, List.forall₂_map_right_iff]
  refine h.imp ?_
  rintro c d (rfl | ⟨hc, hd⟩)
  · exact .inl rfl
  · have hcase : ∀ c ∈ ['_', '-'], c.toLower ∈ ['_', '-'] :=
      List.forall_mem_cons.mpr ⟨by decide, List.forall_mem_singleton.mpr (by decide)⟩
    exact .inr ⟨hcase c hc, hcase d hd⟩

/-- A text with dashes put into another, anywhere and any number of them. -/
inductive Dashed : List Char → List Char → Prop
  /-- Nothing is left. -/
  | nil : Dashed [] []
  /-- A character of the text. -/
  | keep (c : Char) {cs ds : List Char} (h : Dashed cs ds) : Dashed (c :: cs) (c :: ds)
  /-- A dash more. -/
  | add {cs ds : List Char} (h : Dashed cs ds) : Dashed cs ('-' :: ds)

theorem Dashed.filter_eq (h : Dashed cs ds) : ds.filter (· ≠ '-') = cs.filter (· ≠ '-') := by
  induction h with
  | nil => rfl
  | keep c _ ih => rw [List.filter_cons, List.filter_cons, ih]
  | add _ ih => rw [List.filter_cons_of_neg (by decide), ih]

/-- A text is its characters other than dashes with dashes put in. -/
theorem dashed_of_filter (cs : List Char) : Dashed (cs.filter (· ≠ '-')) cs := by
  induction cs with
  | nil => exact .nil
  | cons c cs ih =>
    by_cases hc : c = '-'
    · subst hc
      rw [List.filter_cons_of_neg (by decide)]
      exact .add ih
    · rw [List.filter_cons_of_pos (by simpa using hc)]
      exact .keep c ih

theorem Dashed.map {f : Char → Char} (hf : f '-' = '-') (h : Dashed cs ds) :
    Dashed (cs.map f) (ds.map f) := by
  induction h with
  | nil => exact .nil
  | keep c _ ih => exact .keep (f c) ih
  | add _ ih =>
    rw [List.map_cons, hf]
    exact .add ih

theorem Dashed.append {cs' ds' : List Char} (h : Dashed cs ds) (h' : Dashed cs' ds') :
    Dashed (cs ++ cs') (ds ++ ds') := by
  induction h with
  | nil => exact h'
  | keep c _ ih => exact .keep c ih
  | add _ ih => exact .add ih

theorem Dashed.reverse (h : Dashed cs ds) : Dashed cs.reverse ds.reverse := by
  induction h with
  | nil => exact .nil
  | keep c _ ih =>
    rw [List.reverse_cons, List.reverse_cons]
    exact ih.append (.keep c .nil)
  | add _ ih =>
    rw [List.reverse_cons, ← List.append_nil (List.reverse _)]
    exact ih.append (.add .nil)

/-- No blank comes first where dashes are put into a text that has none there. -/
theorem Dashed.dropWhile_eq (h : Dashed cs ds) (hcs : cs.dropWhile isBlank = cs) :
    ds.dropWhile isBlank = ds := by
  cases h with
  | nil => rfl
  | keep c _ =>
    rw [List.dropWhile_eq_self_iff] at hcs ⊢
    exact fun _ => hcs (Nat.succ_pos _)
  | add _ => exact List.dropWhile_cons_of_neg (by decide)

/-- A token with dashes put into it, its ends included. -/
def TokenDashed (cs ds : List Char) : Prop := trimChars cs = cs ∧ Dashed cs ds

/-- **Dashes put into a token**, its ends included, belong to it. -/
theorem TokenDashed.trimChars_eq (h : TokenDashed cs ds) : trimChars ds = ds := by
  have hends := trimChars_eq_self_iff.mp h.1
  exact trimChars_eq_self_iff.mpr ⟨h.2.dropWhile_eq hends.1, h.2.reverse.dropWhile_eq hends.2⟩

/-! ## Typing -/

/-- A text typed in another way. How a token may be typed besides is for the names of its sort to
say. -/
inductive Retyped (allows : List Char → List Char → Prop) : List Char → List Char → Prop
  /-- The letters are in another case. -/
  | case {cs ds : List Char} (h : SameButCase cs ds) : Retyped allows cs ds
  /-- There are more blanks around the text. -/
  | blanks {before after : List Char} (hbefore : ∀ c ∈ before, isBlank c)
      (hafter : ∀ c ∈ after, isBlank c) (cs : List Char) :
      Retyped allows cs (before ++ cs ++ after)
  /-- What stands between blanks is typed as is allowed. -/
  | token {before after cs ds : List Char} (hbefore : ∀ c ∈ before, isBlank c)
      (hafter : ∀ c ∈ after, isBlank c) (h : allows cs ds) :
      Retyped allows (before ++ cs ++ after) (before ++ ds ++ after)

variable {allows : List Char → List Char → Prop}

theorem Retyped.of_allows (h : allows cs ds) : Retyped allows cs ds := by
  have hnone : ∀ c ∈ ([] : List Char), isBlank c := by simp
  simpa using Retyped.token hnone hnone h

/-- A text is its token with blanks around it. -/
theorem retyped_trimChars (cs : List Char) : Retyped allows (trimChars cs) cs := by
  obtain ⟨before, after, hbefore, hafter, hcs⟩ := exists_trimChars cs
  have h : Retyped allows _ _ := .blanks hbefore hafter (trimChars cs)
  rwa [← hcs] at h

/-- What is made of a token is the same however a text is typed, if it is the same in either case
and for tokens typed as is allowed. -/
theorem Retyped.form_eq {β : Type} {form : List Char → β}
    (hcase : ∀ {cs ds}, SameButCase cs ds → form cs = form ds)
    (hallows : ∀ {cs ds}, allows cs ds → form (trimChars cs) = form (trimChars ds))
    (h : Retyped allows cs ds) : form (trimChars cs) = form (trimChars ds) := by
  cases h with
  | case h => exact hcase h.trimChars
  | blanks hbefore hafter => rw [trimChars_between hbefore hafter]
  | token hbefore hafter h =>
    rw [trimChars_between hbefore hafter, trimChars_between hbefore hafter, hallows h]

end Strongbox.Text
