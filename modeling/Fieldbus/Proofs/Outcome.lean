import Fieldbus.Master.Basic
import Mathlib.Data.List.Forall2
import Mathlib.Logic.Basic

/-!
# Outcomes of actions

How the outcome of a composed action comes about from those of its parts.  A proof
about an action peels off its steps with these lemmas and does not open the action
itself.
-/

namespace Fieldbus

namespace Action

variable {φ σ τ α β : Type}

theorem bind_eq_ok_iff {action : EStateM φ σ α} {next : α → EStateM φ σ β} {state after : σ}
    {result : β} :
    (action >>= next) state = .ok result after ↔
      ∃ value between, action state = .ok value between ∧
        next value between = .ok result after := by
  show EStateM.bind action next state = _ ↔ _
  unfold EStateM.bind
  cases action state <;> simp [and_assoc]

theorem bind_of_ok {action : EStateM φ σ α} {next : α → EStateM φ σ β} {state between : σ}
    {value : α} (first : action state = .ok value between) :
    (action >>= next) state = next value between := by
  show EStateM.bind action next state = _
  rw [EStateM.bind, first]

theorem bind_of_error {action : EStateM φ σ α} {next : α → EStateM φ σ β} {state between : σ}
    {fault : φ} (first : action state = .error fault between) :
    (action >>= next) state = .error fault between := by
  show EStateM.bind action next state = _
  rw [EStateM.bind, first]

/-- Sequences that differ in where and how they start, but not in what comes of it. -/
theorem bind_congr_start {first second : EStateM φ σ α} {next : α → EStateM φ σ β}
    {state other : σ} (same : first state = second other) :
    (first >>= next) state = (second >>= next) other := by
  show EStateM.bind first next state = EStateM.bind second next other
  rw [EStateM.bind, EStateM.bind, same]

theorem bind_eq_error_iff {action : EStateM φ σ α} {next : α → EStateM φ σ β}
    {state after : σ} {fault : φ} :
    (action >>= next) state = .error fault after ↔
      action state = .error fault after ∨
        ∃ value between, action state = .ok value between ∧
          next value between = .error fault after := by
  show EStateM.bind action next state = _ ↔ _
  unfold EStateM.bind
  cases action state <;> simp [and_assoc]

theorem except_bind_eq_ok_iff {first : Except φ α} {next : α → Except φ β} {result : β} :
    (first >>= next) = .ok result ↔ ∃ value, first = .ok value ∧ next value = .ok result := by
  cases first <;> simp [Bind.bind, Except.bind]

theorem except_bind_eq_error_iff {first : Except φ α} {next : α → Except φ β} {fault : φ} :
    (first >>= next) = .error fault ↔
      first = .error fault ∨ ∃ value, first = .ok value ∧ next value = .error fault := by
  cases first <;> simp [Bind.bind, Except.bind]

theorem except_map_eq_error_iff {change : α → β} {first : Except φ α} {fault : φ} :
    first.map change = .error fault ↔ first = .error fault := by
  cases first <;> simp [Except.map]

theorem except_mapM_eq_ok_iff {read : α → Except φ β} {items : List α} {results : List β} :
    items.mapM read = .ok results ↔
      List.Forall₂ (fun item result => read item = .ok result) items results := by
  induction items generalizing results with
  | nil => simp [pure, Except.pure, eq_comm]
  | cons item rest ih =>
      simp only [List.mapM_cons, except_bind_eq_ok_iff, ih, List.forall₂_cons_left_iff, pure,
        Except.pure, Except.ok.injEq]
      constructor
      · rintro ⟨first, itemRead, more, restRead, rfl⟩
        exact ⟨first, more, itemRead, restRead, rfl⟩
      · rintro ⟨first, more, itemRead, restRead, rfl⟩
        exact ⟨first, itemRead, more, restRead, rfl⟩

theorem except_mapError_eq_ok_iff {ψ : Type} {change : φ → ψ} {result : Except φ α} {value : α} :
    result.mapError change = .ok value ↔ result = .ok value := by
  constructor
  · intro mapped
    cases result with
    | ok other =>
        cases mapped
        rfl
    | error fault => cases mapped
  · rintro rfl
    rfl

theorem except_mapError_eq_error_iff {ψ : Type} {change : φ → ψ} {result : Except φ α} {fault : ψ} :
    result.mapError change = .error fault ↔
      ∃ cause, result = .error cause ∧ change cause = fault := by
  cases result <;> simp [Except.mapError]

theorem except_eq_ok_of_toOption {result : Except φ α} {value : α}
    (found : result.toOption = some value) : result = .ok value := by
  cases result with
  | ok other => rw [Option.some.inj found]
  | error fault => cases found

@[simp]
theorem pure_eq_ok_iff {value result : α} {state after : σ} :
    (pure value : EStateM φ σ α) state = .ok result after ↔ value = result ∧ state = after := by
  show EStateM.Result.ok value state = _ ↔ _
  simp

@[simp]
theorem throw_ne_ok {fault : φ} {state after : σ} {result : α} :
    (throw fault : EStateM φ σ α) state ≠ .ok result after := by
  intro equal
  cases equal

theorem get_apply (state : σ) : (get : EStateM φ σ σ) state = .ok state state :=
  rfl

theorem modify_apply (change : σ → σ) (state : σ) :
    (modify change : EStateM φ σ Unit) state = .ok () (change state) :=
  rfl

@[simp]
theorem ofExcept_ok (value : α) (state : σ) :
    ofExcept (.ok value : Except φ α) state = .ok value state :=
  rfl

/-- Catching succeeds exactly if the action does, or its fault is caught and the handler
succeeds. -/
theorem catching_eq_ok_iff {caught : φ → Bool} {action : EStateM φ σ α}
    {handler : φ → EStateM φ σ α} {state after : σ} {result : α} :
    catching caught action handler state = .ok result after ↔
      action state = .ok result after ∨
        ∃ fault between, action state = .error fault between ∧ caught fault = true ∧
          handler fault between = .ok result after := by
  unfold catching
  cases action state with
  | ok value between => simp
  | error fault between =>
      by_cases isCaught : caught fault = true
      · simp only [if_pos isCaught]
        constructor
        · intro handled
          exact Or.inr ⟨fault, between, rfl, isCaught, handled⟩
        · rintro (succeeded | ⟨_, _, same, _, handled⟩)
          · cases succeeded
          · cases same
            exact handled
      · simp [isCaught]

/-- Catching fails exactly if the action fails with a fault that is not caught, or the handler
fails. -/
theorem catching_eq_error_iff {caught : φ → Bool} {action : EStateM φ σ α}
    {handler : φ → EStateM φ σ α} {state after : σ} {fault : φ} :
    catching caught action handler state = .error fault after ↔
      (action state = .error fault after ∧ caught fault = false) ∨
        ∃ cause between, action state = .error cause between ∧ caught cause = true ∧
          handler cause between = .error fault after := by
  unfold catching
  cases action state with
  | ok value between => simp
  | error cause between =>
      by_cases isCaught : caught cause = true
      · simp only [if_pos isCaught]
        constructor
        · intro handled
          exact Or.inr ⟨cause, between, rfl, isCaught, handled⟩
        · rintro (⟨same, uncaught⟩ | ⟨_, _, same, _, handled⟩)
          · cases same
            rw [isCaught] at uncaught
            cases uncaught
          · cases same
            exact handled
      · simp only [if_neg isCaught]
        constructor
        · intro same
          cases same
          exact Or.inl ⟨rfl, Bool.eq_false_iff.mpr isCaught⟩
        · rintro (⟨same, _⟩ | ⟨_, _, same, isCaught', _⟩)
          · exact same
          · cases same
            exact absurd isCaught' isCaught

theorem catching_of_ok {caught : φ → Bool} {action : EStateM φ σ α}
    {handler : φ → EStateM φ σ α} {state after : σ} {result : α}
    (succeeded : action state = .ok result after) :
    catching caught action handler state = .ok result after := by
  rw [catching, succeeded]

theorem catching_of_caught {caught : φ → Bool} {action : EStateM φ σ α}
    {handler : φ → EStateM φ σ α} {state between : σ} {fault : φ}
    (failed : action state = .error fault between) (isCaught : caught fault = true) :
    catching caught action handler state = handler fault between := by
  simp [catching, failed, isCaught]

theorem catching_of_uncaught {caught : φ → Bool} {action : EStateM φ σ α}
    {handler : φ → EStateM φ σ α} {state between : σ} {fault : φ}
    (failed : action state = .error fault between) (isCaught : caught fault = false) :
    catching caught action handler state = .error fault between := by
  simp [catching, failed, isCaught]

/-- The fault of an action is that of the whole, if its cleanup does not fail. -/
theorem exists_error_of_ensuring {action : EStateM φ σ α} {cleanup : EStateM φ σ Unit}
    {state after : σ} {fault : φ} (cleans : ∀ between, ∃ clean, cleanup between = .ok () clean)
    (failed : ensuring action cleanup state = .error fault after) :
    ∃ between, action state = .error fault between := by
  unfold ensuring at failed
  cases outcome : action state with
  | ok result between =>
      obtain ⟨clean, cleaned⟩ := cleans between
      simp only [outcome, cleaned] at failed
      cases failed
  | error cause between =>
      obtain ⟨clean, cleaned⟩ := cleans between
      simp only [outcome, cleaned] at failed
      cases failed
      exact ⟨between, rfl⟩

theorem within_eq_ok_iff {part : Part σ τ} {action : EStateM φ τ α} {state after : σ}
    {result : α} :
    within part action state = .ok result after ↔
      ∃ inner, action (part.get state) = .ok result inner ∧ part.set state inner = after := by
  unfold within
  cases action (part.get state) with
  | ok value inner => simp [and_assoc]
  | error fault inner => simp

theorem within_eq_error_iff {part : Part σ τ} {action : EStateM φ τ α} {state after : σ}
    {fault : φ} :
    within part action state = .error fault after ↔
      ∃ inner, action (part.get state) = .error fault inner ∧ part.set state inner = after := by
  unfold within
  cases action (part.get state) with
  | ok value inner => simp
  | error cause inner => simp [and_assoc]

theorem mapFault_eq_ok_iff {ψ : Type} {change : φ → ψ} {action : EStateM φ σ α}
    {state after : σ} {result : α} :
    mapFault change action state = .ok result after ↔ action state = .ok result after := by
  unfold mapFault
  cases action state with
  | ok value between => simp
  | error fault between => simp

theorem mapFault_eq_error_iff {ψ : Type} {change : φ → ψ} {action : EStateM φ σ α}
    {state after : σ} {fault : ψ} :
    mapFault change action state = .error fault after ↔
      ∃ cause, action state = .error cause after ∧ change cause = fault := by
  unfold mapFault
  cases action state with
  | ok value between => simp
  | error cause between =>
      constructor
      · intro changed
        cases changed
        exact ⟨cause, rfl, rfl⟩
      · rintro ⟨_, same, rfl⟩
        cases same
        rfl

theorem mapFault_bind {ψ : Type} {change : φ → ψ} {action : EStateM φ σ α}
    {next : α → EStateM φ σ β} :
    mapFault change (action >>= next) =
      mapFault change action >>= fun value => mapFault change (next value) := by
  funext state
  cases outcome : action state with
  | ok value between =>
      have changed : mapFault change action state = .ok value between :=
        mapFault_eq_ok_iff.mpr outcome
      rw [bind_of_ok changed, mapFault, mapFault, bind_of_ok outcome]
  | error fault between =>
      have changed : mapFault change action state = .error (change fault) between :=
        mapFault_eq_error_iff.mpr ⟨fault, outcome, rfl⟩
      rw [bind_of_error changed, mapFault, bind_of_error outcome]

def result? : EStateM.Result φ σ α → Option α
  | .ok result _ => some result
  | .error _ _ => none

/-- The outcome of an action apart from the state that it leaves behind. -/
def outcome : EStateM.Result φ σ α → Except φ α
  | .ok result _ => .ok result
  | .error fault _ => .error fault

theorem exists_ok_of_outcome {outcome : EStateM.Result φ σ α} {result : α}
    (succeeded : Action.outcome outcome = .ok result) : ∃ after, outcome = .ok result after := by
  cases outcome with
  | ok value after =>
      cases succeeded
      exact ⟨after, rfl⟩
  | error fault after => cases succeeded

theorem exists_error_of_outcome {outcome : EStateM.Result φ σ α} {fault : φ}
    (failed : Action.outcome outcome = .error fault) : ∃ after, outcome = .error fault after := by
  cases outcome with
  | ok value after => cases failed
  | error cause after =>
      cases failed
      exact ⟨after, rfl⟩

theorem exists_ok_of_result? {outcome : EStateM.Result φ σ α} {result : α}
    (succeeded : result? outcome = some result) : ∃ after, outcome = .ok result after := by
  cases outcome with
  | ok value after =>
      cases succeeded
      exact ⟨after, rfl⟩
  | error fault after => cases succeeded

end Action

namespace Session

variable {ε α : Type}

/-- Asking the engine succeeds exactly if the engine does; only the engine changes. -/
theorem ask_eq_ok_iff {action : Action ε α} {session after : Session ε} {result : α} :
    ask action session = .ok result after ↔
      ∃ engine, action session.engine = .ok result engine ∧
        after = { session with engine } := by
  unfold ask Action.within enginePart
  cases action session.engine <;> simp [and_assoc, eq_comm]

theorem ask_of_ok {action : Action ε α} {session : Session ε} {result : α} {engine : ε}
    (asked : action session.engine = .ok result engine) :
    ask action session = .ok result { session with engine } := by
  unfold ask Action.within enginePart
  simp only [asked]

theorem ask_of_error {action : Action ε α} {session : Session ε} {fault : Fault} {engine : ε}
    (asked : action session.engine = .error fault engine) :
    ask action session = .error fault { session with engine } := by
  unfold ask Action.within enginePart
  simp only [asked]

@[simp]
theorem warn_apply (source : Source) (text : Text) (session : Session ε) :
    warn source text session =
      .ok () { session with notices := session.notices.push ⟨.warning, source, text⟩ } :=
  rfl

end Session

namespace Master

variable {ε α : Type}

theorem ask_of_ok {action : Action ε α} {master : Master ε} {result : α} {engine : ε}
    (asked : action master.engine = .ok result engine) :
    ask action master = .ok result { master with session := { master.session with engine } } := by
  have session : Session.ask action master.session =
      .ok result { master.session with engine } := Session.ask_of_ok asked
  exact Action.within_eq_ok_iff.mpr ⟨_, session, rfl⟩

theorem ask_of_error {action : Action ε α} {master : Master ε} {fault : Fault} {engine : ε}
    (asked : action master.engine = .error fault engine) :
    ask action master = .error fault { master with session := { master.session with engine } } := by
  have session : Session.ask action master.session =
      .error fault { master.session with engine } := Session.ask_of_error asked
  exact Action.within_eq_error_iff.mpr ⟨_, session, rfl⟩

theorem exists_of_ask_ok {action : Action ε α} {master after : Master ε} {result : α}
    (asked : ask action master = .ok result after) :
    ∃ engine, action master.engine = .ok result engine ∧
      after = { master with session := { master.session with engine } } := by
  cases outcome : action master.engine with
  | ok value engine =>
      rw [ask_of_ok outcome] at asked
      cases asked
      exact ⟨engine, rfl, rfl⟩
  | error fault engine =>
      rw [ask_of_error outcome] at asked
      cases asked

theorem ask_unchanged_of_ok {action : Action ε α} {master : Master ε} {result : α}
    (asked : action master.engine = .ok result master.engine) :
    ask action master = .ok result master :=
  ask_of_ok asked

theorem ask_unchanged_of_error {action : Action ε α} {master : Master ε} {fault : Fault}
    (asked : action master.engine = .error fault master.engine) :
    ask action master = .error fault master :=
  ask_of_error asked

end Master

end Fieldbus
