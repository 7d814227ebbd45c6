import Fieldbus.Session
import Mathlib.Order.Defs.Unbundled

/-!
# Moves of actions

An action moves along a relation if it relates every state to the one that it leaves
behind, whether it succeeds or fails.  For a preorder this composes along everything that
actions are made of, so that a property of a master is proved function by function.  An
invariant is the special case of the preorder that preserves it.
-/

namespace Fieldbus

namespace Action

variable {φ ψ σ τ α β : Type}

def final : EStateM.Result φ σ α → σ
  | .ok _ state => state
  | .error _ state => state

/-- A cleanup goes on from where the action ends, whether it succeeds or fails. -/
theorem final_ensuring (action : EStateM φ σ α) (cleanup : EStateM φ σ Unit) (state : σ) :
    final (Action.ensuring action cleanup state) = final (cleanup (final (action state))) := by
  unfold Action.ensuring
  cases action state with
  | ok value between => cases last : cleanup between <;> simp [final, last]
  | error fault between => cases last : cleanup between <;> simp [final, last]

/-- An action moves its states along a relation. -/
def Moves (relation : σ → σ → Prop) (action : EStateM φ σ α) : Prop :=
  ∀ state, relation state (final (action state))

theorem Moves.of_ok {relation : σ → σ → Prop} {action : EStateM φ σ α} {state after : σ}
    {result : α} (moves : Moves relation action) (succeeded : action state = .ok result after) :
    relation state after := by
  have moved := moves state
  rwa [succeeded] at moved

theorem Moves.of_error {relation : σ → σ → Prop} {action : EStateM φ σ α} {state after : σ}
    {fault : φ} (moves : Moves relation action) (failed : action state = .error fault after) :
    relation state after := by
  have moved := moves state
  rwa [failed] at moved

/-- The preorder that preserves a property. -/
def Preserve (property : σ → Prop) (before after : σ) : Prop :=
  property before → property after

instance (property : σ → Prop) : IsPreorder σ (Preserve property) where
  refl _ := id
  trans _ _ _ first second := second ∘ first

/-- The preorder that keeps what is seen of a state. -/
def Keep (view : σ → β) (before after : σ) : Prop :=
  view after = view before

instance (view : σ → β) : IsPreorder σ (Keep view) where
  refl _ := rfl
  trans _ _ _ first second := Eq.trans second first

/-- The preorder that moves what is seen of a state along another one. -/
def Along (view : σ → τ) (inner : τ → τ → Prop) (before after : σ) : Prop :=
  inner (view before) (view after)

instance (view : σ → τ) {inner : τ → τ → Prop} [IsPreorder τ inner] :
    IsPreorder σ (Along view inner) where
  refl state := refl (view state)
  trans first second third := IsTrans.trans (view first) (view second) (view third)

namespace Moves

variable {relation : σ → σ → Prop} [IsPreorder σ relation]

theorem of_unmoved {action : EStateM φ σ α} (unmoved : ∀ state, final (action state) = state) :
    Moves relation action := by
  intro state
  rw [unmoved]
  exact refl state

theorem pure (value : α) : Moves relation (Pure.pure value : EStateM φ σ α) :=
  of_unmoved fun _ => rfl

theorem throw (fault : φ) : Moves relation (MonadExcept.throw fault : EStateM φ σ α) :=
  of_unmoved fun _ => rfl

theorem get : Moves relation (MonadState.get : EStateM φ σ σ) :=
  of_unmoved fun _ => rfl

theorem ofExcept (result : Except φ α) : Moves relation (Action.ofExcept result) := by
  apply of_unmoved
  intro state
  cases result with
  | ok value => rfl
  | error fault => rfl

theorem ofAccident (result : Except Accident α) :
    Moves relation (Action.ofAccident result) :=
  ofExcept _

omit [IsPreorder σ relation] in
theorem modify {change : σ → σ} (changes : ∀ state, relation state (change state)) :
    Moves relation (modify change : EStateM φ σ Unit) := by
  intro state
  exact changes state

/-- A sequence moves along what its first step moves along and its second step does after
the results of the first. -/
theorem bind_of_ok {action : EStateM φ σ α} {next : α → EStateM φ σ β}
    (first : Moves relation action)
    (second : ∀ state value between, action state = .ok value between →
      relation between (final (next value between))) :
    Moves relation (action >>= next) := by
  intro state
  have moved := first state
  show relation state (final (EStateM.bind action next state))
  unfold EStateM.bind
  cases outcome : action state with
  | ok value between =>
      rw [outcome] at moved
      exact IsTrans.trans _ _ _ moved (second state value between outcome)
  | error fault between =>
      rw [outcome] at moved
      exact moved

theorem final_bind {next : α → EStateM φ σ β} (second : ∀ value, Moves relation (next value))
    (action : EStateM φ σ α) (state : σ) :
    relation (final (action state)) (final ((action >>= next) state)) := by
  show relation _ (final (EStateM.bind action next state))
  unfold EStateM.bind
  cases action state with
  | ok value between => exact second value between
  | error fault between => exact refl between

theorem bind {action : EStateM φ σ α} {next : α → EStateM φ σ β}
    (first : Moves relation action) (second : ∀ value, Moves relation (next value)) :
    Moves relation (action >>= next) := by
  intro state
  exact IsTrans.trans _ _ _ (first state) (final_bind second action state)

omit [IsPreorder σ relation] in
theorem mapFault {action : EStateM φ σ α} (moves : Moves relation action) (change : φ → ψ) :
    Moves relation (Action.mapFault change action) := by
  intro state
  have moved := moves state
  unfold Action.mapFault
  cases outcome : action state with
  | ok value after => rwa [outcome] at moved
  | error fault after => rwa [outcome] at moved

omit [IsPreorder σ relation] in
theorem attempt {action : EStateM φ σ α} (moves : Moves relation action) :
    Moves relation (Action.attempt action) := by
  intro state
  have moved := moves state
  unfold Action.attempt
  cases outcome : action state with
  | ok value after => rwa [outcome] at moved
  | error fault after => rwa [outcome] at moved

/-- A handler goes on from where the action failed. -/
theorem final_catching {handler : φ → EStateM φ σ α}
    (second : ∀ fault, Moves relation (handler fault)) (caught : φ → Bool)
    (action : EStateM φ σ α) (state : σ) :
    relation (final (action state)) (final (Action.catching caught action handler state)) := by
  unfold Action.catching
  cases action state with
  | ok value between => exact refl between
  | error fault between =>
      by_cases isCaught : caught fault = true
      · simp only [if_pos isCaught]
        exact second fault between
      · simp only [if_neg isCaught]
        exact refl between

theorem catching {caught : φ → Bool} {action : EStateM φ σ α} {handler : φ → EStateM φ σ α}
    (first : Moves relation action) (second : ∀ fault, Moves relation (handler fault)) :
    Moves relation (Action.catching caught action handler) := by
  intro state
  exact IsTrans.trans _ _ _ (first state) (final_catching second caught action state)

theorem ensuring {action : EStateM φ σ α} {cleanup : EStateM φ σ Unit}
    (first : Moves relation action) (second : Moves relation cleanup) :
    Moves relation (Action.ensuring action cleanup) := by
  intro state
  rw [final_ensuring]
  exact IsTrans.trans _ _ _ (first state) (second (final (action state)))

omit [IsPreorder σ relation] in
/-- An action on a part moves along what the change of the part brings about. -/
theorem within_along {part : Part σ τ} {inner : τ → τ → Prop} {action : EStateM φ τ α}
    (moves : Moves inner action)
    (changes : ∀ state after, inner (part.get state) after → relation state (part.set state after)) :
    Moves relation (Action.within part action) := by
  intro state
  have moved := moves (part.get state)
  unfold Action.within
  cases outcome : action (part.get state) with
  | ok value after =>
      rw [outcome] at moved
      exact changes state after moved
  | error fault after =>
      rw [outcome] at moved
      exact changes state after moved

omit [IsPreorder σ relation] in
theorem within {part : Part σ τ} {action : EStateM φ τ α}
    (changes : ∀ state inner, relation state (part.set state inner)) :
    Moves relation (Action.within part action) := by
  have anyhow : Moves (fun _ _ => True) action := fun _ => trivial
  exact within_along anyhow fun state after _ => changes state after

end Moves

end Action

end Fieldbus
