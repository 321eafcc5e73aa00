import Mathlib.Data.List.Induction

/-!
# Runs

A run asks a machine one call after another. The machine answers each call and goes on in the
state that the call leaves behind.

## Main definitions

* `Run.stateAfter step s calls`: the state after a run
* `Run.answers step s calls`: what was answered, in order

## Main results

* `Run.stateAfter_snoc`: one call more
* `Run.getElem?_answers`: the answer at a place of a run
* `Run.stateAfter_induction`: what holds at first and is kept by every call holds after every run
-/

namespace Strongbox.Run

variable {S C A : Type} (step : S → C → A × S)

/-- The state after a run. -/
def stateAfter (s : S) (calls : List C) : S := calls.foldl (fun s call => (step s call).2) s

/-- What was answered in a run, in order. -/
def answers : S → List C → List A
  | _, [] => []
  | s, call :: calls => (step s call).1 :: answers (step s call).2 calls

variable (s : S)

@[simp] theorem stateAfter_nil : stateAfter step s [] = s := rfl

@[simp] theorem stateAfter_cons (call : C) (calls : List C) :
    stateAfter step s (call :: calls) = stateAfter step (step s call).2 calls := rfl

theorem stateAfter_append (calls more : List C) :
    stateAfter step s (calls ++ more) = stateAfter step (stateAfter step s calls) more := by
  rw [stateAfter, List.foldl_append]
  rfl

/-- One call more. -/
theorem stateAfter_snoc (calls : List C) (call : C) :
    stateAfter step s (calls ++ [call]) = (step (stateAfter step s calls) call).2 := by
  rw [stateAfter_append]
  rfl

/-- The answer at a place of a run is that of the state after the calls in front. -/
theorem getElem?_answers (calls : List C) (i : Nat) :
    (answers step s calls)[i]? =
      calls[i]?.map fun call => (step (stateAfter step s (calls.take i)) call).1 := by
  induction calls generalizing s i with
  | nil => rfl
  | cons call calls ih =>
    cases i with
    | zero => rfl
    | succ i => exact ih (step s call).2 i

/-- The state after a place of a run is that after the call there. -/
theorem stateAfter_take_succ {calls : List C} {i : Nat} {call : C} (h : calls[i]? = some call) :
    stateAfter step s (calls.take (i + 1)) =
      (step (stateAfter step s (calls.take i)) call).2 := by
  rw [List.take_add_one, h, Option.toList_some, stateAfter_snoc]

/-- What holds at first and is kept by every call holds after every run. The property may speak of
the calls so far. -/
theorem stateAfter_induction {P : List C → S → Prop} (h₀ : P [] s)
    (hstep : ∀ calls s' call, P calls s' → P (calls ++ [call]) (step s' call).2) (calls : List C) :
    P calls (stateAfter step s calls) := by
  induction calls using List.reverseRecOn with
  | nil => exact h₀
  | append_singleton calls call ih =>
    rw [stateAfter_snoc]
    exact hstep calls _ call ih

end Strongbox.Run
