import Fieldbus.Fault

/-!
# Actions

An action changes a state and returns a result or fails.  What it changed before
it failed stays changed.
-/

namespace Fieldbus

abbrev Action (σ α : Type) := EStateM Fault σ α

/-- A part of a state: how to see it and how to replace it. -/
structure Part (σ τ : Type) where
  get : σ → τ
  set : σ → τ → σ

namespace Action

variable {φ σ τ α : Type}

/-- Run an action on a part of a state. -/
def within (part : Part σ τ) (action : EStateM φ τ α) : EStateM φ σ α := fun state =>
  match action (part.get state) with
  | .ok result inner => .ok result (part.set state inner)
  | .error fault inner => .error fault (part.set state inner)

/-- The result of a computation that has no state. -/
def ofExcept (result : Except φ α) : EStateM φ σ α := fun state =>
  match result with
  | .ok value => .ok value state
  | .error fault => .error fault state

/-- The result of a computation that fails by accident only. -/
def ofAccident (result : Except Accident α) : Action σ α :=
  ofExcept (result.mapError .accident)

/-- Replace the fault of a failing action. -/
def mapFault {ψ : Type} (change : φ → ψ) (action : EStateM φ σ α) : EStateM ψ σ α := fun state =>
  match action state with
  | .ok result after => .ok result after
  | .error fault after => .error (change fault) after

/-- Run an action and, if its fault is one of those to be caught, another one that
is told the fault. -/
def catching (caught : φ → Bool) (action : EStateM φ σ α) (handler : φ → EStateM φ σ α) :
    EStateM φ σ α := fun state =>
  match action state with
  | .ok result after => .ok result after
  | .error fault after => if caught fault then handler fault after else .error fault after

/-- Run `cleanup` after an action, whether it fails or not.  A fault of `cleanup`
takes the place of that of the action. -/
def ensuring (action : EStateM φ σ α) (cleanup : EStateM φ σ Unit) : EStateM φ σ α := fun state =>
  match action state with
  | .ok result after =>
      match cleanup after with
      | .ok _ clean => .ok result clean
      | .error fault clean => .error fault clean
  | .error fault after =>
      match cleanup after with
      | .ok _ clean => .error fault clean
      | .error later clean => .error later clean

/-- The outcome of an action as a result that cannot fail. -/
def attempt (action : EStateM φ σ α) : EStateM φ σ (Except φ α) := fun state =>
  match action state with
  | .ok result after => .ok (.ok result) after
  | .error fault after => .ok (.error fault) after

end Action

end Fieldbus
