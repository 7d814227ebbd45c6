import Fieldbus.Proofs.Moves
import Fieldbus.Proofs.Outcome

/-!
# Two runs of an action

Two actions couple over a relation if from related states both succeed with related results
or both fail with the same fault, and leave related states behind.  What a state does not
show to a run is what the relation leaves open.  An action that one of two runs takes alone
is contained in the states that stay related to the other run, and must not fail.
-/

namespace Fieldbus

namespace Action

variable {φ σ τ α β γ δ : Type}

/-- An outcome is a result of some kind or a fault of some kind, with a proper state. -/
inductive Ends (proper : σ → Prop) (faults : φ → Prop) (values : α → Prop) :
    EStateM.Result φ σ α → Prop
  | ok {value : α} {after : σ} : values value → proper after →
      Ends proper faults values (.ok value after)
  | error {fault : φ} {after : σ} : faults fault → proper after →
      Ends proper faults values (.error fault after)

theorem Ends.mono {proper others : σ → Prop} {faults : φ → Prop} {values : α → Prop}
    {outcome : EStateM.Result φ σ α} (ended : Ends proper faults values outcome)
    (weaken : ∀ state, proper state → others state) : Ends others faults values outcome := by
  cases ended with
  | ok valid kept => exact .ok valid (weaken _ kept)
  | error allowed kept => exact .error allowed (weaken _ kept)

/-- From proper states an action ends in proper states, with results and faults of some
kind. -/
def Contained (proper : σ → Prop) (faults : φ → Prop) (values : α → Prop)
    (action : EStateM φ σ α) : Prop :=
  ∀ state, proper state → Ends proper faults values (action state)

def never (_ : φ) : Prop := False

namespace Contained

variable {proper : σ → Prop} {faults : φ → Prop} {values : α → Prop} {results : β → Prop}

theorem congr {action : EStateM φ σ α} {others : σ → Prop}
    (contained : Contained proper faults values action)
    (same : ∀ state, others state ↔ proper state) :
    Contained others faults values action := by
  have equal : others = proper := funext fun state => propext (same state)
  rw [equal]
  exact contained

theorem pure {value : α} (valid : values value) :
    Contained proper faults values (Pure.pure value : EStateM φ σ α) := by
  intro state known
  exact .ok valid known

theorem throw {fault : φ} (allowed : faults fault) :
    Contained proper faults values (MonadExcept.throw fault : EStateM φ σ α) := by
  intro state known
  exact .error allowed known

theorem get : Contained proper faults proper (MonadState.get : EStateM φ σ σ) := by
  intro state known
  exact .ok known known

theorem bind_of_ok {action : EStateM φ σ α} {next : α → EStateM φ σ β}
    (first : Contained proper faults values action)
    (second : ∀ state value between, proper state → action state = .ok value between →
      values value → proper between → Ends proper faults results (next value between)) :
    Contained proper faults results (action >>= next) := by
  intro state known
  have ended := first state known
  show Ends proper faults results (EStateM.bind action next state)
  unfold EStateM.bind
  generalize outcome : action state = result at ended
  cases ended with
  | ok valid kept => exact second _ _ _ known outcome valid kept
  | error allowed kept => exact .error allowed kept

theorem bind {action : EStateM φ σ α} {next : α → EStateM φ σ β}
    (first : Contained proper faults values action)
    (second : ∀ value, values value → Contained proper faults results (next value)) :
    Contained proper faults results (action >>= next) :=
  first.bind_of_ok fun _ value between _ _ valid kept => second value valid between kept

theorem of_ok {action : EStateM φ σ α} {state after : σ} {value : α}
    (contained : Contained proper faults values action) (known : proper state)
    (succeeded : action state = .ok value after) : values value ∧ proper after := by
  have ended := contained state known
  rw [succeeded] at ended
  cases ended with
  | ok valid kept => exact ⟨valid, kept⟩

theorem mapFault {ψ : Type} {others : ψ → Prop} {action : EStateM φ σ α} {change : φ → ψ}
    (contained : Contained proper faults values action)
    (changes : ∀ fault, faults fault → others (change fault)) :
    Contained proper others values (Action.mapFault change action) := by
  intro state known
  have ended := contained state known
  unfold Action.mapFault
  generalize action state = result at ended ⊢
  cases ended with
  | ok valid kept => exact .ok valid kept
  | error allowed kept => exact .error (changes _ allowed) kept

/-- An action whose faults are all caught fails only as its handler does. -/
theorem catching {action : EStateM φ σ α} {caught : φ → Bool} {handler : φ → EStateM φ σ α}
    (contained : Contained proper (caught · = true) values action)
    (handled : ∀ fault, Contained proper faults values (handler fault)) :
    Contained proper faults values (Action.catching caught action handler) := by
  intro state known
  have ended := contained state known
  unfold Action.catching
  generalize action state = result at ended ⊢
  cases ended with
  | ok valid kept => exact .ok valid kept
  | error isCaught kept =>
      simp only [if_pos isCaught]
      exact handled _ _ kept

/-- An action on a part is contained if it is so wherever a proper state has that part. -/
theorem within {part : Part σ τ} {action : EStateM φ τ α}
    (contained : ∀ state, proper state → ∃ inside : τ → Prop, inside (part.get state) ∧
      Contained inside faults values action ∧
      ∀ inner, inside inner → proper (part.set state inner)) :
    Contained proper faults values (Action.within part action) := by
  intro state known
  obtain ⟨inside, holds, inner, restore⟩ := contained state known
  have ended := inner (part.get state) holds
  unfold Action.within
  generalize action (part.get state) = result at ended ⊢
  cases ended with
  | ok valid kept => exact .ok valid (restore _ kept)
  | error allowed kept => exact .error allowed (restore _ kept)

end Contained

/-- Two outcomes agree: both are results, and related, or both are the same fault; the states
are related. -/
inductive Agree (states : σ → σ → Prop) (values : α → β → Prop) :
    EStateM.Result φ σ α → EStateM.Result φ σ β → Prop
  | ok {first : α} {second : β} {left right : σ} : values first second → states left right →
      Agree states values (.ok first left) (.ok second right)
  | error (fault : φ) {left right : σ} : states left right →
      Agree states values (.error fault left) (.error fault right)

theorem Agree.mono {states weaker : σ → σ → Prop} {values : α → β → Prop}
    {first : EStateM.Result φ σ α} {second : EStateM.Result φ σ β}
    (agree : Agree states values first second)
    (weaken : ∀ left right, states left right → weaker left right) :
    Agree weaker values first second := by
  cases agree with
  | ok valid related => exact .ok valid (weaken _ _ related)
  | error fault related => exact .error fault (weaken _ _ related)

theorem Agree.outcome_eq {states : σ → σ → Prop} {first second : EStateM.Result φ σ α}
    (agree : Agree states Eq first second) : outcome first = outcome second := by
  cases agree with
  | ok valid _ => exact congrArg Except.ok valid
  | error _ _ => rfl

theorem Agree.final {states : σ → σ → Prop} {values : α → β → Prop}
    {first : EStateM.Result φ σ α} {second : EStateM.Result φ σ β}
    (agree : Agree states values first second) :
    states (Action.final first) (Action.final second) := by
  cases agree with
  | ok _ related => exact related
  | error _ related => exact related

/-- From related states two actions have outcomes that agree. -/
def Couples (states : σ → σ → Prop) (values : α → β → Prop) (first : EStateM φ σ α)
    (second : EStateM φ σ β) : Prop :=
  ∀ left right, states left right → Agree states values (first left) (second right)

namespace Couples

variable {states : σ → σ → Prop} {values : α → β → Prop} {results : γ → δ → Prop}
  {first : EStateM φ σ α} {second : EStateM φ σ β}

theorem symm (couples : Couples states values first second) :
    Couples (flip states) (flip values) second first := by
  intro left right related
  have agree := couples right left related
  generalize first right = firstOutcome at agree
  generalize second left = secondOutcome at agree
  cases agree with
  | ok valid kept => exact .ok valid kept
  | error fault kept => exact .error fault kept

theorem pure {left : α} {right : β} (valid : values left right) :
    Couples states values (Pure.pure left : EStateM φ σ α) (Pure.pure right) := by
  intro _ _ related
  exact .ok valid related

theorem throw (fault : φ) :
    Couples states values (MonadExcept.throw fault : EStateM φ σ α)
      (MonadExcept.throw fault : EStateM φ σ β) := by
  intro _ _ related
  exact .error fault related

theorem get : Couples states states (MonadState.get : EStateM φ σ σ) MonadState.get := by
  intro _ _ related
  exact .ok related related

theorem set {left right : σ} (related : states left right) :
    Couples states (fun _ _ => True) (MonadStateOf.set left : EStateM φ σ PUnit)
      (MonadStateOf.set right : EStateM φ σ PUnit) := by
  intro _ _ _
  exact .ok trivial related

theorem ofExcept (result : Except φ α) :
    Couples states Eq (Action.ofExcept result) (Action.ofExcept result) := by
  cases result with
  | ok value => exact Couples.pure rfl
  | error fault => exact Couples.throw fault

theorem bind_of_ok {next : α → EStateM φ σ γ} {other : β → EStateM φ σ δ}
    (couples : Couples states values first second)
    (rest : ∀ left leftValue leftAfter right rightValue rightAfter, states left right →
      first left = .ok leftValue leftAfter → second right = .ok rightValue rightAfter →
      values leftValue rightValue → states leftAfter rightAfter →
      Agree states results (next leftValue leftAfter) (other rightValue rightAfter)) :
    Couples states results (first >>= next) (second >>= other) := by
  intro left right related
  have agree := couples left right related
  show Agree states results (EStateM.bind first next left) (EStateM.bind second other right)
  unfold EStateM.bind
  generalize leftOutcome : first left = leftResult at agree
  generalize rightOutcome : second right = rightResult at agree
  cases agree with
  | ok valid kept => exact rest _ _ _ _ _ _ related leftOutcome rightOutcome valid kept
  | error fault kept => exact .error fault kept

theorem bind {next : α → EStateM φ σ γ} {other : β → EStateM φ σ δ}
    (couples : Couples states values first second)
    (rest : ∀ left right, values left right → Couples states results (next left) (other right)) :
    Couples states results (first >>= next) (second >>= other) :=
  couples.bind_of_ok fun _ _ _ _ _ _ _ _ _ valid kept => rest _ _ valid _ _ kept

theorem mapFault {ψ : Type} (couples : Couples states values first second) (change : φ → ψ) :
    Couples states values (Action.mapFault change first) (Action.mapFault change second) := by
  intro left right related
  have agree := couples left right related
  unfold Action.mapFault
  generalize first left = firstOutcome at agree ⊢
  generalize second right = secondOutcome at agree ⊢
  cases agree with
  | ok valid kept => exact .ok valid kept
  | error fault kept => exact .error (change fault) kept

theorem catching {caught : φ → Bool} {handler : φ → EStateM φ σ α} {other : φ → EStateM φ σ β}
    (couples : Couples states values first second)
    (handled : ∀ fault, Couples states values (handler fault) (other fault)) :
    Couples states values (Action.catching caught first handler)
      (Action.catching caught second other) := by
  intro left right related
  have agree := couples left right related
  unfold Action.catching
  generalize first left = firstOutcome at agree ⊢
  generalize second right = secondOutcome at agree ⊢
  cases agree with
  | ok valid kept => exact .ok valid kept
  | error fault kept =>
      by_cases isCaught : caught fault = true
      · simp only [if_pos isCaught]
        exact handled fault _ _ kept
      · simp only [if_neg isCaught]
        exact .error fault kept

theorem within {part : Part σ τ} {inner : τ → τ → Prop} {action : EStateM φ τ α}
    {other : EStateM φ τ β} (couples : Couples inner values action other)
    (parts : ∀ left right, states left right → inner (part.get left) (part.get right))
    (restore : ∀ left right leftInner rightInner, states left right →
      inner leftInner rightInner → states (part.set left leftInner) (part.set right rightInner)) :
    Couples states values (Action.within part action) (Action.within part other) := by
  intro left right related
  have agree := couples _ _ (parts left right related)
  unfold Action.within
  generalize action (part.get left) = firstOutcome at agree ⊢
  generalize other (part.get right) = secondOutcome at agree ⊢
  cases agree with
  | ok valid kept => exact .ok valid (restore _ _ _ _ related kept)
  | error fault kept => exact .error fault (restore _ _ _ _ related kept)

/-- Two actions that keep what is seen of their states couple where that is known. -/
theorem keeping {view : σ → γ} {seen other : γ} (couples : Couples states values first second)
    (firstKeeps : Moves (Keep view) first) (secondKeeps : Moves (Keep view) second) :
    Couples (fun left right => states left right ∧ view left = seen ∧ view right = other) values
      first second := by
  rintro left right ⟨related, leftSeen, rightSeen⟩
  have agree := couples left right related
  have leftKept := (firstKeeps left).trans leftSeen
  have rightKept := (secondKeeps right).trans rightSeen
  generalize first left = firstOutcome at agree leftKept
  generalize second right = secondOutcome at agree rightKept
  cases agree with
  | ok valid kept => exact .ok valid ⟨kept, leftKept, rightKept⟩
  | error fault kept => exact .error fault ⟨kept, leftKept, rightKept⟩

/-- The first run takes a step of its own that cannot fail. -/
theorem left {kinds : α → Prop} {next : α → EStateM φ σ γ} {other : EStateM φ σ δ}
    (step : ∀ right, Contained (states · right) never kinds first)
    (rest : ∀ value, kinds value → Couples states results (next value) other) :
    Couples states results (first >>= next) other := by
  intro left right related
  have ended := step right left related
  show Agree states results (EStateM.bind first next left) (other right)
  unfold EStateM.bind
  generalize first left = result at ended
  cases ended with
  | ok valid kept => exact rest _ valid _ _ kept
  | error impossible _ => exact impossible.elim

/-- The second run takes a step of its own that cannot fail. -/
theorem right {kinds : β → Prop} {next : β → EStateM φ σ δ} {other : EStateM φ σ γ}
    (step : ∀ left, Contained (states left) never kinds second)
    (rest : ∀ value, kinds value → Couples states results other (next value)) :
    Couples states results other (second >>= next) :=
  symm (left step fun value valid => symm (rest value valid))

end Couples

end Action

end Fieldbus
