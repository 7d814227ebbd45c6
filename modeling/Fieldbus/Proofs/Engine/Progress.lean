import Fieldbus.Proofs.Engine.StackFootprint

/-!
# The progress of an engine

A stack that takes notes of its open master: whether it was bound, whether its slaves were
enumerated, and whether its image was mapped.  A new master starts anew, and a master that is
released leaves nothing noted.  Apart from its notes such a stack is the stack that it tracks, so
that a run over it is a run over any stack, with the history of the open master beside it.
-/

namespace Fieldbus

open Fieldbus.Action

/-- What the open master of a stack has come to since it was made. -/
structure Progress where
  bound : Bool
  enumerated : Bool
  mapped : Bool
  deriving DecidableEq, Repr

namespace Progress

def start : Progress :=
  ⟨false, false, false⟩

def isComplete (progress : Progress) : Bool :=
  progress.bound && progress.enumerated && progress.mapped

/-- The master is the same and has mapped no image, but its slaves may have been enumerated. -/
structure Advances (before after : Progress) : Prop where
  bound : after.bound = before.bound
  mapped : after.mapped = before.mapped
  enumerated : before.enumerated = true → after.enumerated = true

instance : IsPreorder Progress Advances where
  refl _ := ⟨rfl, rfl, id⟩
  trans _ _ _ first second :=
    ⟨second.bound.trans first.bound, second.mapped.trans first.mapped,
      second.enumerated ∘ first.enumerated⟩

end Progress

/-- A stack with the notes of the progress of its open master. -/
structure Tracked (σ : Type) where
  inner : σ
  progress : Progress

namespace Tracked

variable {σ α : Type}

/-- A stack that has no open master yet. -/
def ofStack (stack : σ) : Tracked σ :=
  ⟨stack, .start⟩

/-- Let the stack act, and note what its success means for the progress. -/
def noting (note : α → Progress → Progress) (action : Action σ α) : Action (Tracked σ) α :=
  fun tracked =>
    match action tracked.inner with
    | .ok value inner => .ok value ⟨inner, note value tracked.progress⟩
    | .error fault inner => .error fault ⟨inner, tracked.progress⟩

def quietly (action : Action σ α) : Action (Tracked σ) α :=
  noting (fun _ progress => progress) action

def change (update : σ → σ) (tracked : Tracked σ) : Tracked σ :=
  { tracked with inner := update tracked.inner }

def erased : EStateM.Result Fault (Tracked σ) α → EStateM.Result Fault σ α
  | .ok value tracked => .ok value tracked.inner
  | .error fault tracked => .error fault tracked.inner

/-- The notes change neither what the stack does nor how it ends. -/
theorem erased_noting (note : α → Progress → Progress) (action : Action σ α)
    (tracked : Tracked σ) : erased (noting note action tracked) = action tracked.inner := by
  unfold noting
  cases action tracked.inner with
  | ok value inner => rfl
  | error fault inner => rfl

theorem progress_of_noting_ok {note : α → Progress → Progress} {action : Action σ α}
    {tracked after : Tracked σ} {value : α} (noted : noting note action tracked = .ok value after) :
    after.progress = note value tracked.progress := by
  unfold noting at noted
  cases acted : action tracked.inner with
  | ok result inner =>
      rw [acted] at noted
      cases noted
      rfl
  | error fault inner =>
      rw [acted] at noted
      cases noted

theorem progress_of_noting_error {note : α → Progress → Progress} {action : Action σ α}
    {tracked after : Tracked σ} {fault : Fault}
    (noted : noting note action tracked = .error fault after) :
    after.progress = tracked.progress := by
  unfold noting at noted
  cases acted : action tracked.inner with
  | ok result inner =>
      rw [acted] at noted
      cases noted
  | error cause inner =>
      rw [acted] at noted
      cases noted
      rfl

theorem advances_noting {note : α → Progress → Progress}
    (advances : ∀ value progress, Progress.Advances progress (note value progress))
    (action : Action σ α) :
    Moves (Along Tracked.progress Progress.Advances) (noting note action) := by
  intro tracked
  unfold noting
  cases action tracked.inner with
  | ok value inner => exact advances value tracked.progress
  | error fault inner => exact refl tracked.progress

theorem advances_quietly (action : Action σ α) :
    Moves (Along Tracked.progress Progress.Advances) (quietly action) :=
  advances_noting (fun _ progress => refl progress) action

end Tracked

open Tracked in
instance {σ : Type} [Stack σ] : Stack (Tracked σ) where
  adapters tracked := Stack.adapters tracked.inner
  bind adapter tracked :=
    noting (fun _ progress => { progress with bound := true }) (Stack.bind adapter)
      { tracked with progress := .start }
  release tracked := ⟨Stack.release tracked.inner, .start⟩
  enumerate := noting
    (fun count progress =>
      { progress with enumerated := progress.enumerated || decide (0 ≤ count) })
    Stack.enumerate
  mapImage := noting (fun _ progress => { progress with mapped := true }) Stack.mapImage
  configureClocks := quietly Stack.configureClocks
  slaves tracked := Stack.slaves tracked.inner
  writeState state := quietly (Stack.writeState state)
  writeSlaveState place state := quietly (Stack.writeSlaveState place state)
  checkState state micros := quietly (Stack.checkState state micros)
  readState := quietly Stack.readState
  objects place := quietly (Stack.objects place)
  entries place object := quietly (Stack.entries place object)
  upload place entry size complete micros :=
    quietly (Stack.upload place entry size complete micros)
  download place entry data complete micros :=
    quietly (Stack.download place entry data complete micros)
  setOutput tracked place data := tracked.change (Stack.setOutput · place data)
  send tracked := tracked.change Stack.send
  receive micros := quietly (Stack.receive micros)
  expectedWkc tracked := Stack.expectedWkc tracked.inner
  now tracked := Stack.now tracked.inner
  wait tracked seconds := tracked.change (Stack.wait · seconds)
  taskStarted tracked := tracked.change Stack.taskStarted
  taskJoined tracked := tracked.change Stack.taskJoined

namespace Tracked

variable {σ α : Type} [Stack σ]

theorem progress_pushOutputs (image : Bytes) (place : Nat) (ranges : List ImageRange)
    (tracked : Tracked σ) :
    (StackEngine.pushOutputs image place ranges tracked).progress = tracked.progress := by
  induction ranges generalizing place tracked with
  | nil => rfl
  | cons range rest ih =>
      rw [StackEngine.pushOutputs, ih]
      split
      · rfl
      · rfl

theorem advances_routine {action : Action (Tracked σ) α} (routine : Stack.IsRoutine action) :
    Moves (Along Tracked.progress Progress.Advances) action := by
  cases routine with
  | enumerate =>
      apply advances_noting
      intro count progress
      refine ⟨rfl, rfl, ?_⟩
      intro enumerated
      rw [enumerated]
      rfl
  | configureClocks => exact advances_quietly _
  | writeState state => exact advances_quietly _
  | writeSlaveState place state => exact advances_quietly _
  | checkState state micros => exact advances_quietly _
  | readState => exact advances_quietly _
  | objects place => exact advances_quietly _
  | entries place object => exact advances_quietly _
  | upload place entry size complete micros => exact advances_quietly _
  | download place entry data complete micros => exact advances_quietly _
  | pushOutputs image place ranges =>
      refine Moves.modify fun tracked => ?_
      rw [Along, progress_pushOutputs]
      exact refl tracked.progress
  | send => exact Moves.modify fun tracked => refl tracked.progress
  | receive micros => exact advances_quietly _

end Tracked

namespace StackEngine

variable {σ α : Type}

/-- The engine has an open master that was bound, enumerated its slaves, and mapped its image. -/
def isReady (engine : StackEngine (Tracked σ)) : Bool :=
  engine.isOpen && engine.stack.progress.isComplete

/-- The engine keeps its open master, which advances. -/
structure Advances (before after : StackEngine (Tracked σ)) : Prop where
  isOpen : after.isOpen = before.isOpen
  progress : before.stack.progress.Advances after.stack.progress

instance : IsPreorder (StackEngine (Tracked σ)) Advances where
  refl _ := ⟨rfl, refl _⟩
  trans _ _ _ first second :=
    ⟨second.isOpen.trans first.isOpen, IsTrans.trans _ _ _ first.progress second.progress⟩

/-- The image was mapped only after the slaves were enumerated. -/
def InOrder (engine : StackEngine (Tracked σ)) : Prop :=
  engine.stack.progress.mapped = true → engine.stack.progress.enumerated = true

variable {before after engine : StackEngine (Tracked σ)}

theorem Advances.inOrder (advances : Advances before after) (inOrder : InOrder before) :
    InOrder after := by
  intro mapped
  rw [advances.progress.mapped] at mapped
  exact advances.progress.enumerated (inOrder mapped)

theorem isReady_of_inOrder (inOrder : InOrder engine) :
    engine.isReady =
      (engine.isOpen && engine.stack.progress.bound && engine.stack.progress.mapped) := by
  rw [isReady, Progress.isComplete]
  cases mapped : engine.stack.progress.mapped with
  | false => simp
  | true => simp [inOrder mapped]

theorem Advances.isReady_eq (advances : Advances before after) (inOrder : InOrder before) :
    after.isReady = before.isReady := by
  rw [isReady_of_inOrder inOrder, isReady_of_inOrder (advances.inOrder inOrder),
    advances.isOpen, advances.progress.bound, advances.progress.mapped]

theorem advances_call {action : Action (Tracked σ) α}
    (moves : Moves (Along Tracked.progress Progress.Advances) action) :
    Moves Advances (call action) :=
  Moves.within_along moves fun _ _ advances => ⟨rfl, advances⟩

variable [Stack σ]

instance : AllowsRoutine (Advances (σ := σ)) where
  calls routine := advances_call (Tracked.advances_routine routine)
  objects _ _ := ⟨rfl, refl _⟩
  takesIn _ := ⟨rfl, refl _⟩

theorem enumerated_of_enumerate {count : Int} (enumerates : enumerate engine = .ok count after) :
    after.stack.progress.enumerated = true := by
  obtain ⟨_, opened, _, rest⟩ := bind_eq_ok_iff.mp enumerates
  obtain ⟨reported, called, calling, rest⟩ := bind_eq_ok_iff.mp rest
  by_cases lost : reported = -1
  · simp only [if_pos lost] at rest
    exact absurd rest throw_ne_ok
  · by_cases unknown : reported < -1
    · simp only [if_neg lost, if_pos unknown] at rest
      exact absurd rest throw_ne_ok
    · simp only [if_neg lost, if_neg unknown] at rest
      cases rest
      obtain ⟨stack, noted, rfl⟩ := within_eq_ok_iff.mp calling
      have progressEq := Tracked.progress_of_noting_ok noted
      have counted : 0 ≤ reported := by omega
      show stack.progress.enumerated = true
      rw [progressEq]
      simp [counted]

theorem mapped_of_mapImage {size : Int} (mapped : mapImage engine = .ok size after) :
    after.isOpen = engine.isOpen ∧
      after.stack.progress = { engine.stack.progress with mapped := true } := by
  cases mapCourse engine with
  | refused outcome =>
      rw [outcome] at mapped
      cases mapped
  | mapped mapping outcome =>
      rw [outcome] at mapped
      cases mapped
      exact ⟨rfl, Tracked.progress_of_noting_ok mapping⟩
  | failed mapping outcome =>
      rw [outcome] at mapped
      cases mapped

theorem advances_of_mapImage_error {fault : Fault}
    (failed : mapImage engine = .error fault after) : Advances engine after := by
  cases mapCourse engine with
  | refused outcome =>
      rw [outcome] at failed
      cases failed
      exact refl _
  | mapped mapping outcome =>
      rw [outcome] at failed
      cases failed
  | failed mapping outcome =>
      rw [outcome] at failed
      cases failed
      refine ⟨rfl, ?_⟩
      rw [Tracked.progress_of_noting_error mapping]
      exact refl _

/-- Whether a stack refuses to be bound to the adapter that an engine chooses. -/
def isRefused (adapter : Payload) (engine : StackEngine σ) : Bool :=
  match choose (adapters engine.stack) adapter with
  | .error _ => false
  | .ok name =>
      match Stack.bind name engine.stack with
      | .ok _ _ => false
      | .error _ _ => true

/-- How binding an engine goes. -/
inductive BindCourse (adapter : Payload) (engine : StackEngine (Tracked σ)) : Prop
  | unchosen {fault : Fault} (chosen : isRefused adapter engine = false)
      (outcome : connect adapter engine = .error fault engine)
  | refused {fault : Fault} {after : StackEngine (Tracked σ)}
      (refused : isRefused adapter engine = true) (progress : after.stack.progress = .start)
      (outcome : connect adapter engine = .error fault after)
  | bound {after : StackEngine (Tracked σ)} (accepted : isRefused adapter engine = false)
      (isOpen : after.isOpen = true) (progress : after.stack.progress = ⟨true, false, false⟩)
      (outcome : connect adapter engine = .ok () after)

theorem bindCourse (adapter : Payload) (engine : StackEngine (Tracked σ)) :
    BindCourse adapter engine := by
  cases chosen : choose (adapters engine.stack) adapter with
  | error fault =>
      have accepted : isRefused adapter engine = false := by
        simp only [isRefused, chosen]
      exact .unchosen accepted (connect_of_unchosen chosen)
  | ok name =>
      let opened : StackEngine (Tracked σ) := { engine with isOpen := true }
      cases binding : Stack.bind name engine.stack with
      | ok _ stack =>
          have called : Action.attempt (call (Stack.bind name)) opened =
              .ok (.ok ()) { opened with stack } := by
            simp only [Action.attempt, call, within, stackPart, opened, binding]
          have accepted : isRefused adapter engine = false := by
            simp only [isRefused, chosen, binding]
          have outcome : connect adapter engine = .ok () { opened with stack, objects := [] } := by
            rw [connect_of_chosen chosen]
            exact bind_of_ok called
          exact .bound accepted rfl (Tracked.progress_of_noting_ok binding) outcome
      | error fault stack =>
          have called : Action.attempt (call (Stack.bind name)) opened =
              .ok (.error fault) { opened with stack } := by
            simp only [Action.attempt, call, within, stackPart, opened, binding]
          obtain ⟨cause, after, settled, stackEq⟩ :=
            exists_settle_error name fault { opened with stack }
          have refused : isRefused adapter engine = true := by
            simp only [isRefused, chosen, binding]
          have progress : after.stack.progress = .start := by
            rw [stackEq]
            exact Tracked.progress_of_noting_error binding
          have outcome : connect adapter engine = .error cause after := by
            rw [connect_of_chosen chosen]
            exact (bind_of_ok called).trans settled
          exact .refused refused progress outcome

theorem inOrder_connect (adapter : Payload) :
    Moves (Preserve InOrder) (connect (σ := Tracked σ) adapter) := by
  intro engine inOrder
  cases bindCourse adapter engine with
  | unchosen _ outcome =>
      rw [outcome]
      exact inOrder
  | refused _ progress outcome =>
      rw [outcome]
      intro mapped
      rw [final, progress] at mapped
      cases mapped
  | bound _ _ progress outcome =>
      rw [outcome]
      intro mapped
      rw [final, progress] at mapped
      cases mapped

theorem inOrder_disconnect : Moves (Preserve InOrder) (disconnect (σ := Tracked σ)) := by
  intro engine inOrder
  rw [disconnect_apply]
  cases isOpen : engine.isOpen with
  | false =>
      have same : engine.released.stack = engine.stack := by
        rw [released, isOpen]
        rfl
      intro mapped
      rw [final, same] at mapped ⊢
      exact inOrder mapped
  | true =>
      have fresh : engine.released.stack.progress = .start := by
        rw [released, isOpen]
        rfl
      intro mapped
      rw [final, fresh] at mapped
      cases mapped

end StackEngine

end Fieldbus
