import Fieldbus.Proofs.Outcome
import Fieldbus.Proofs.Moves

/-!
# Actions that go on with a log

A log is a list in a state at whose end actions write.  A story relates how an action ends and
what it wrote.  That an action tells a story, from every state of some kind, composes along
everything that actions are made of: a sequence writes what its first step wrote and then what
its second step wrote, and a step that fails keeps what was written before.
-/

namespace Fieldbus

namespace Action

variable {φ ψ σ τ α β κ : Type}

/-- From proper states an action writes at the end of a log and leaves a proper state behind;
how it ends and what it wrote make a story. -/
def Tells (proper : σ → Prop) (log : σ → List κ) (story : Except φ α → List κ → Prop)
    (action : EStateM φ σ α) : Prop :=
  ∀ state, proper state → ∃ written, log (final (action state)) = log state ++ written ∧
    proper (final (action state)) ∧ story (outcome (action state)) written

namespace Tells

variable {proper : σ → Prop} {log : σ → List κ} {story other : Except φ α → List κ → Prop}
  {action : EStateM φ σ α}

theorem mono (tells : Tells proper log story action)
    (weaken : ∀ ended written, story ended written → other ended written) :
    Tells proper log other action := by
  intro state known
  obtain ⟨written, wrote, kept, told⟩ := tells state known
  exact ⟨written, wrote, kept, weaken _ _ told⟩

/-- What only looks at a state writes nothing. -/
theorem of_unmoved (unmoved : ∀ state, final (action state) = state)
    (told : ∀ state, proper state → story (outcome (action state)) []) :
    Tells proper log story action := by
  intro state known
  refine ⟨[], ?_, ?_, told state known⟩
  · rw [unmoved, List.append_nil]
  · rw [unmoved]
    exact known

theorem pure {value : α} (told : story (.ok value) []) :
    Tells proper log story (Pure.pure value) :=
  of_unmoved (fun _ => rfl) fun _ _ => told

theorem throw {fault : φ} (told : story (.error fault) []) :
    Tells proper log story (MonadExcept.throw fault) :=
  of_unmoved (fun _ => rfl) fun _ _ => told

theorem ofExcept {result : Except φ α} (told : story result []) :
    Tells proper log story (Action.ofExcept result) := by
  cases result with
  | ok value => exact pure told
  | error fault => exact throw told

theorem modify {story : Except φ Unit → List κ → Prop} {change : σ → σ}
    (writes : ∀ state, log (change state) = log state)
    (keeps : ∀ state, proper state → proper (change state)) (told : story (.ok ()) []) :
    Tells proper log story (modify change) := by
  intro state known
  exact ⟨[], by rw [List.append_nil]; exact writes state, keeps state known, told⟩

/-- A sequence tells a story if its first step does where it fails, and its second step goes on
with it where the first succeeds. -/
theorem bind {first : Except φ α → List κ → Prop} {story : Except φ β → List κ → Prop}
    {next : α → EStateM φ σ β} (tells : Tells proper log first action)
    (stops : ∀ fault written, first (.error fault) written → story (.error fault) written)
    (goes : ∀ value written, first (.ok value) written →
      Tells proper log (fun ended more => story ended (written ++ more)) (next value)) :
    Tells proper log story (action >>= next) := by
  intro state known
  obtain ⟨written, wrote, kept, told⟩ := tells state known
  show ∃ written, log (final (EStateM.bind action next state)) = _ ∧
    proper (final (EStateM.bind action next state)) ∧
    story (outcome (EStateM.bind action next state)) written
  unfold EStateM.bind
  generalize action state = result at wrote kept told
  cases result with
  | ok value between =>
      obtain ⟨more, wroteMore, keptMore, toldMore⟩ := goes value written told between kept
      refine ⟨written ++ more, ?_, keptMore, toldMore⟩
      rw [wroteMore, ← List.append_assoc]
      exact congrArg (· ++ more) wrote
  | error fault between => exact ⟨written, wrote, kept, stops fault written told⟩

/-- What follows a look at the state tells its own story. -/
theorem bind_get {story : Except φ β → List κ → Prop} {next : σ → EStateM φ σ β}
    (goes : ∀ state, proper state → Tells proper log story (next state)) :
    Tells proper log story (MonadState.get >>= next) := by
  intro state known
  exact goes state known state known

theorem mapFault {change : φ → ψ} {story : Except ψ α → List κ → Prop}
    (tells : Tells proper log (fun ended => story (ended.mapError change)) action) :
    Tells proper log story (Action.mapFault change action) := by
  intro state known
  obtain ⟨written, wrote, kept, told⟩ := tells state known
  refine ⟨written, ?_⟩
  unfold Action.mapFault
  generalize action state = result at wrote kept told
  cases result with
  | ok value after => exact ⟨wrote, kept, told⟩
  | error fault after => exact ⟨wrote, kept, told⟩

/-- Catching tells a story if the action does where nothing is caught, and the handler goes on
with it where a fault is. -/
theorem catching {first : Except φ α → List κ → Prop} {caught : φ → Bool}
    {handler : φ → EStateM φ σ α} (tells : Tells proper log first action)
    (ends : ∀ ended written, first ended written → (∀ fault, ended = .error fault →
      caught fault = false) → story ended written)
    (handled : ∀ fault written, first (.error fault) written →
      Tells proper log (fun ended more => story ended (written ++ more)) (handler fault)) :
    Tells proper log story (Action.catching caught action handler) := by
  intro state known
  obtain ⟨written, wrote, kept, told⟩ := tells state known
  unfold Action.catching
  generalize action state = result at wrote kept told
  cases result with
  | ok value after =>
      refine ⟨written, wrote, kept, ends _ _ told ?_⟩
      rintro _ ⟨⟩
  | error fault between =>
      by_cases isCaught : caught fault = true
      · obtain ⟨more, wroteMore, keptMore, toldMore⟩ := handled fault written told between kept
        simp only [if_pos isCaught]
        refine ⟨written ++ more, ?_, keptMore, toldMore⟩
        rw [wroteMore, ← List.append_assoc]
        exact congrArg (· ++ more) wrote
      · simp only [if_neg isCaught]
        refine ⟨written, wrote, kept, ends _ _ told ?_⟩
        rintro _ ⟨⟩
        simpa using isCaught

/-- An action on a part tells what it tells of the part, if the log is that of the part. -/
theorem within {part : Part σ τ} {inner : τ → List κ} {action : EStateM φ τ α}
    (tells : Tells (fun _ => True) inner story action)
    (reads : ∀ state, log state = inner (part.get state))
    (restores : ∀ state after, log (part.set state after) = inner after)
    (keeps : ∀ state after, proper state → proper (part.set state after)) :
    Tells proper log story (Action.within part action) := by
  intro state known
  obtain ⟨written, wrote, _, told⟩ := tells (part.get state) trivial
  refine ⟨written, ?_⟩
  unfold Action.within
  generalize action (part.get state) = result at wrote told
  cases result with
  | ok value after =>
      exact ⟨(restores state after).trans (wrote.trans (by rw [reads state])),
        keeps state after known, told⟩
  | error fault after =>
      exact ⟨(restores state after).trans (wrote.trans (by rw [reads state])),
        keeps state after known, told⟩

end Tells

end Action

end Fieldbus
