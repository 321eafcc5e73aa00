import Strongbox.Proofs.Outcome

/-!
# Settings in a row

A draft is set up by settings in a row, each of which gives some of its parts a value and leaves the
others as they are. Whatever the parts are, a part is then what it was last given.

## Main definitions

* `lastGiven`: the last value that is given in a row

## Main results

* `lastGiven_append`: what is given later takes the place of what was given before
* `get_of_foldlM`: a part of a draft after settings in a row
* `exists_foldlM_iff`: settings in a row are accepted if each of them is
-/

namespace Strongbox

variable {σ τ α : Type}

/-! ## The last value -/

/-- The last value that is given in a row, if one is. -/
def lastGiven (value? : τ → Option α) (settings : List τ) : Option α :=
  (settings.filterMap value?).getLast?

section

variable (value? : τ → Option α)

@[simp] theorem lastGiven_nil : lastGiven value? [] = none := rfl

/-- What is given later takes the place of what was given before. -/
@[simp] theorem lastGiven_append (before after : List τ) :
    lastGiven value? (before ++ after) = (lastGiven value? after).or (lastGiven value? before) := by
  rw [lastGiven, List.filterMap_append, List.getLast?_append, lastGiven, lastGiven]

@[simp] theorem lastGiven_cons (setting : τ) (settings : List τ) :
    lastGiven value? (setting :: settings) = (lastGiven value? settings).or (value? setting) := by
  have hone : lastGiven value? [setting] = value? setting := by
    rw [lastGiven]
    cases h : value? setting <;> simp [h]
  rw [← hone, ← lastGiven_append, List.singleton_append]

theorem lastGiven_toList (setting : Option τ) :
    lastGiven value? setting.toList = setting.bind value? := by
  cases setting with
  | none => rfl
  | some setting => rw [Option.toList_some, lastGiven_cons, lastGiven_nil, Option.none_or]; rfl

/-- Settings that give nothing do not matter. -/
theorem lastGiven_filter (settings : List τ) :
    lastGiven value? (settings.filter fun setting => (value? setting).isSome) =
      lastGiven value? settings := by
  rw [lastGiven, List.filterMap_filter, lastGiven]
  congr 2
  funext setting
  cases value? setting <;> rfl

theorem lastGiven_eq_none_iff {settings : List τ} :
    lastGiven value? settings = none ↔ ∀ setting ∈ settings, value? setting = none := by
  rw [lastGiven, List.getLast?_eq_none_iff, List.filterMap_eq_nil_iff]

end

/-! ## Drafts -/

section

variable {step : σ → τ → Result σ} {settings : List τ} {draft draft' : σ}

/-- **A part of a draft is what it was last given**, and what it was if it was given nothing. -/
theorem get_of_foldlM (get : σ → Option α) {value? : τ → Option α}
    (hstep : ∀ draft setting draft', step draft setting = .ok draft' →
      get draft' = (value? setting).or (get draft))
    (h : settings.foldlM step draft = .ok draft') :
    get draft' = (lastGiven value? settings).or (get draft) := by
  induction settings generalizing draft with
  | nil =>
    cases h
    rfl
  | cons setting settings ih =>
    rw [List.foldlM_cons] at h
    obtain ⟨next, hnext, h⟩ := bind_eq_ok_iff.mp h
    rw [ih h, hstep _ _ _ hnext, lastGiven_cons, Option.or_assoc]

/-- What no setting changes is as it was. -/
theorem eq_of_foldlM (get : σ → α)
    (hstep : ∀ draft setting draft', step draft setting = .ok draft' → get draft' = get draft)
    (h : settings.foldlM step draft = .ok draft') : get draft' = get draft := by
  induction settings generalizing draft with
  | nil =>
    cases h
    rfl
  | cons setting settings ih =>
    rw [List.foldlM_cons] at h
    obtain ⟨next, hnext, h⟩ := bind_eq_ok_iff.mp h
    rw [ih h, hstep _ _ _ hnext]

/-- **Settings in a row are accepted if each of them is**, where that does not depend on the
draft. -/
theorem exists_foldlM_iff {Accepted : τ → Prop}
    (hstep : ∀ draft setting, (∃ draft', step draft setting = .ok draft') ↔ Accepted setting)
    (settings : List τ) (draft : σ) :
    (∃ draft', settings.foldlM step draft = .ok draft') ↔
      ∀ setting ∈ settings, Accepted setting := by
  induction settings generalizing draft with
  | nil => exact iff_of_true ⟨draft, rfl⟩ (List.forall_mem_nil _)
  | cons setting settings ih =>
    rw [List.foldlM_cons, List.forall_mem_cons, ← hstep draft setting]
    constructor
    · rintro ⟨draft', h⟩
      obtain ⟨next, hnext, h⟩ := bind_eq_ok_iff.mp h
      exact ⟨⟨next, hnext⟩, (ih next).mp ⟨draft', h⟩⟩
    · rintro ⟨⟨next, hnext⟩, hall⟩
      obtain ⟨draft', h⟩ := (ih next).mpr hall
      exact ⟨draft', bind_eq_ok_iff.mpr ⟨next, hnext, h⟩⟩

end

end Strongbox
