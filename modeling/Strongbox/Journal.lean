import Strongbox.Error
/-!
# Journals

A journal is the list of events of a run, in order. It is kept when the run fails.

## Main definitions

* `Journal.Event`, `Event.line`: an event and its line
* `Journal`: a run that can fail, with its journal
* `Journal.note`: adds an event

## Main results

* `Journal.outcome_bind`: what a run gives does not hang on the journal
-/

namespace Strongbox

namespace Journal

/-- How much an event matters. -/
inductive Level where
  /-- Only for those who trace a run. -/
  | trace
  /-- Only for those who ask for more. -/
  | debug
  /-- For all. -/
  | info
deriving DecidableEq, Repr

/-- The level in words. -/
def Level.describe : Level → String
  | .trace => "TRACE"
  | .debug => "DEBUG"
  | .info => "INFO"

/-- An event. -/
structure Event where
  /-- How much it matters. -/
  level : Level
  /-- What happened. -/
  message : String
  /-- What belongs to it. -/
  fields : List (String × String) := []
deriving DecidableEq, Repr

/-- The line of an event. -/
def Event.line (event : Event) : String :=
  " ".intercalate <|
    event.level.describe :: event.message ::
      event.fields.map fun (name, value) => name ++ "=" ++ value

end Journal

/-- A run that can fail, with its journal. -/
structure Journal (ε α : Type) where
  /-- What happened, in order. -/
  events : List Journal.Event
  /-- What the run gives. -/
  outcome : Except ε α

namespace Journal

variable {ε ε' α : Type}

/-- A run without any events. -/
def lift (outcome : Except ε α) : Journal ε α := ⟨[], outcome⟩

/-- A run that is nothing but an event. -/
def note (event : Event) : Journal ε Unit := ⟨[event], .ok ()⟩

/-- A run whose failure is told in another way. -/
def mapError (f : ε → ε') (run : Journal ε α) : Journal ε' α :=
  ⟨run.events, run.outcome.mapError f⟩

/-- A run that goes on with the outcome of another, failed or not. -/
def attempt (run : Journal ε α) : Journal ε' (Except ε α) := ⟨run.events, .ok run.outcome⟩

instance : Monad (Journal ε) where
  pure a := ⟨[], .ok a⟩
  bind run next :=
    match run.outcome with
    | .ok a => ⟨run.events ++ (next a).events, (next a).outcome⟩
    | .error error => ⟨run.events, .error error⟩

@[simp] theorem outcome_lift (outcome : Except ε α) : (lift outcome).outcome = outcome := rfl

@[simp] theorem outcome_note (event : Event) : (note event : Journal ε Unit).outcome = .ok () :=
  rfl

@[simp] theorem outcome_mapError (f : ε → ε') (run : Journal ε α) :
    (run.mapError f).outcome = run.outcome.mapError f := rfl

@[simp] theorem outcome_attempt (run : Journal ε α) :
    (run.attempt : Journal ε' (Except ε α)).outcome = .ok run.outcome := rfl

@[simp] theorem outcome_pure (a : α) : (pure a : Journal ε α).outcome = .ok a := rfl

/-- What a run gives does not hang on the journal. -/
@[simp] theorem outcome_bind {β : Type} (run : Journal ε α) (next : α → Journal ε β) :
    (run >>= next).outcome = run.outcome >>= fun a => (next a).outcome := by
  cases h : run.outcome <;> simp [bind, Except.bind, h]

end Journal

end Strongbox
