import Fieldbus.Proofs.Dialogue
import Fieldbus.Proofs.Moves
import Fieldbus.Proofs.Outcome
import Fieldbus.Stack.StackEngine

/-!
# Footprints of the requests to an engine over a stack

What a request to an engine over a frame stack does to the engine, whatever the stack is.  Routine
requests let the stack do what neither binds nor releases it and does not map the image, note the
object lists that were read, and take in what slaves sent.  A relation that allows this moves along
all of them.
-/

namespace Fieldbus

open Fieldbus.Action

/-- What a routine request lets a stack do. -/
inductive Stack.IsRoutine {σ : Type} [Stack σ] : {α : Type} → Action σ α → Prop
  | enumerate : IsRoutine Stack.enumerate
  | configureClocks : IsRoutine Stack.configureClocks
  | writeState (state : Int) : IsRoutine (Stack.writeState state)
  | writeSlaveState (place : Nat) (state : Int) : IsRoutine (Stack.writeSlaveState place state)
  | checkState (state micros : Int) : IsRoutine (Stack.checkState state micros)
  | readState : IsRoutine Stack.readState
  | objects (place : Nat) : IsRoutine (Stack.objects place)
  | entries (place : Nat) (object : StackObject) : IsRoutine (Stack.entries place object)
  | upload (place : Nat) (entry : EntryIndex) (size : Int) (complete : Bool) (micros : Int) :
      IsRoutine (Stack.upload place entry size complete micros)
  | download (place : Nat) (entry : EntryIndex) (data : Bytes) (complete : Bool) (micros : Int) :
      IsRoutine (Stack.download place entry data complete micros)
  | pushOutputs (image : Bytes) (place : Nat) (ranges : List ImageRange) :
      IsRoutine (modify (StackEngine.pushOutputs image place ranges))
  | send : IsRoutine (modify Stack.send)
  | receive (micros : Int) : IsRoutine (Stack.receive micros)

namespace StackEngine

variable {σ α : Type} {relation : StackEngine σ → StackEngine σ → Prop}

theorem needOpen_of_isOpen {engine : StackEngine σ} (isOpen : engine.isOpen = true) :
    needOpen engine = .ok () engine := by
  rw [needOpen, bind_of_ok (get_apply engine), isOpen]
  rfl

theorem needOpen_of_not_isOpen {engine : StackEngine σ} (isClosed : engine.isOpen = false) :
    needOpen engine = .error (.accident .notOpen) engine := by
  rw [needOpen, bind_of_ok (get_apply engine), isClosed]
  rfl

section Guards

variable [IsPreorder (StackEngine σ) relation]

theorem moves_needOpen : Moves relation needOpen := by
  refine Moves.bind Moves.get ?_
  intro engine
  split
  · exact Moves.throw _
  · exact Moves.pure _

theorem moves_needSlaves [Stack σ] (ranges : List ImageRange) :
    Moves relation (needSlaves ranges) := by
  refine Moves.bind Moves.get ?_
  intro engine
  dsimp only
  split
  · exact Moves.throw _
  · exact Moves.pure _

theorem moves_slaveAt [Stack σ] (slave : Int) : Moves relation (slaveAt slave) := by
  refine Moves.bind moves_needOpen ?_
  intro _
  refine Moves.bind Moves.get ?_
  intro engine
  refine Moves.bind (Moves.ofExcept _) ?_
  intro place
  exact Moves.pure _

theorem moves_knownObjects (slave : Int) : Moves relation (knownObjects slave) := by
  refine Moves.bind Moves.get ?_
  intro engine
  split
  · exact Moves.pure _
  · exact Moves.throw _

theorem moves_checkRequest (state wkc : Int) : Moves relation (checkRequest state wkc) := by
  rw [checkRequest]
  split
  · exact Moves.of_unmoved fun _ => rfl
  · split
    · exact Moves.throw _
    · exact Moves.pure _

end Guards

variable [Stack σ]

section Binding

/-- What an engine makes of how binding its stack ended. -/
def settle (name : Text) : Except Fault Unit → Action (StackEngine σ) Unit
  | .ok _ => modify fun engine => { engine with objects := [] }
  | .error (.stack error) => do
      if error.kind = .os ∨ error.kind = .runtime then
        modify fun engine => { engine with isOpen := false }
        throw (.connection (.adapterNotOpened name error.text))
      else throw (.stack error)
  | .error fault => throw fault

/-- An engine that finds its adapter binds its stack. -/
theorem connect_of_chosen {adapter : Payload} {engine : StackEngine σ} {name : Text}
    (chosen : choose (adapters engine.stack) adapter = .ok name) :
    connect adapter engine =
      (do settle name (← Action.attempt (call (Stack.bind name))))
        { engine with isOpen := true } := by
  rw [connect, bind_of_ok (get_apply engine), chosen]
  refine congrArg (fun next => (Action.attempt (call (Stack.bind name)) >>= next)
    { engine with isOpen := true }) ?_
  funext outcome
  rcases outcome with (_ | _) | _ <;> rfl

theorem connect_of_unchosen {adapter : Payload} {engine : StackEngine σ} {fault : ConnectionFault}
    (unchosen : choose (adapters engine.stack) adapter = .error fault) :
    connect adapter engine = .error (.connection fault) engine := by
  rw [connect, bind_of_ok (get_apply engine), unchosen]
  rfl

omit [Stack σ] in
/-- A fault of the stack ends binding, whatever becomes of it. -/
theorem exists_settle_error (name : Text) (fault : Fault) (engine : StackEngine σ) :
    ∃ cause after, settle name (.error fault) engine = .error cause after ∧
      after.stack = engine.stack := by
  cases fault with
  | stack error =>
      rw [settle]
      split
      · exact ⟨_, _, rfl, rfl⟩
      · exact ⟨_, _, rfl, rfl⟩
  | _ => exact ⟨_, _, rfl, rfl⟩

variable [IsPreorder (StackEngine σ) relation]

/-- Binding moves along what it does to the stack, if the relation leaves open whether there is an
open master and which object lists were read. -/
theorem moves_connect (rebinds : ∀ engine isOpen, relation engine { engine with isOpen })
    (forgets : ∀ engine objects, relation engine { engine with objects })
    (binds : ∀ name, Moves relation (call (Stack.bind (σ := σ) name))) (adapter : Payload) :
    Moves relation (connect (σ := σ) adapter) := by
  have settles (name : Text) (outcome : Except Fault Unit) :
      Moves relation (settle (σ := σ) name outcome) := by
    unfold settle
    split
    · exact Moves.modify fun engine => forgets engine []
    · split
      · refine Moves.bind (Moves.modify fun engine => rebinds engine false) ?_
        intro _
        exact Moves.throw _
      · exact Moves.throw _
    · exact Moves.throw _
  intro engine
  cases chosen : choose (adapters engine.stack) adapter with
  | error fault =>
      rw [connect_of_unchosen chosen]
      exact refl engine
  | ok name =>
      rw [connect_of_chosen chosen]
      have settled := Moves.bind (binds name).attempt (settles name) { engine with isOpen := true }
      exact IsTrans.trans _ _ _ (rebinds engine true) settled

end Binding

/-- An engine that has given up its image and released its stack. -/
def released (engine : StackEngine σ) : StackEngine σ :=
  { stack := if engine.isOpen then Stack.release engine.stack else engine.stack
    isOpen := false, image := [], outputs := [], inputs := [], objects := [] }

theorem disconnect_apply (engine : StackEngine σ) : disconnect engine = .ok () engine.released := by
  rw [disconnect, bind_of_ok (get_apply engine), released]
  cases isOpen : engine.isOpen with
  | true => rfl
  | false => rfl

/-- An engine that has laid out the image for the slaves of its stack. -/
def arranged (engine : StackEngine σ) : StackEngine σ :=
  let outputLengths := (Stack.slaves engine.stack).map (·.output.length)
  let inputLengths := (Stack.slaves engine.stack).map (·.input.length)
  { engine with
    image := Bytes.zeros (ImageRange.total outputLengths + ImageRange.total inputLengths)
    outputs := ImageRange.arrange 0 outputLengths
    inputs := ImageRange.arrange (ImageRange.total outputLengths) inputLengths }

/-- How laying out the image ends: it is refused while there is no open master, or the stack maps
its slaves or fails to. -/
inductive MapCourse (engine : StackEngine σ) : Prop
  | refused (outcome : mapImage engine = .error (.accident .notOpen) engine)
  | mapped {size : Int} {stack : σ} (mapping : Stack.mapImage engine.stack = .ok size stack)
      (outcome : mapImage engine = .ok size (arranged { engine with stack }))
  | failed {fault cause : Fault} {stack : σ}
      (mapping : Stack.mapImage engine.stack = .error fault stack)
      (outcome : mapImage engine = .error cause { engine with stack })

theorem mapCourse (engine : StackEngine σ) : MapCourse engine := by
  cases isOpen : engine.isOpen with
  | false =>
      exact .refused (bind_of_error (needOpen_of_not_isOpen isOpen))
  | true =>
      have allowed := needOpen_of_isOpen isOpen
      cases mapping : Stack.mapImage engine.stack with
      | ok size stack =>
          have called : call Stack.mapImage engine = .ok size { engine with stack } :=
            within_eq_ok_iff.mpr ⟨stack, mapping, rfl⟩
          refine .mapped mapping ?_
          rw [mapImage, bind_of_ok allowed, callCatching,
            bind_of_ok (mapFault_eq_ok_iff.mpr called)]
          rfl
      | error fault stack =>
          have called : call Stack.mapImage engine = .error fault { engine with stack } :=
            within_eq_error_iff.mpr ⟨stack, mapping, rfl⟩
          obtain ⟨cause, outcome⟩ :
              ∃ cause, mapImage engine = .error cause { engine with stack } := by
            rw [mapImage, bind_of_ok allowed, callCatching]
            exact ⟨_, bind_of_error (mapFault_eq_error_iff.mpr ⟨fault, called, rfl⟩)⟩
          exact .failed mapping outcome

/-- What the inputs that came back make of an engine. -/
def takeIn (engine : StackEngine σ) : StackEngine σ :=
  { engine with
    image := ImageRange.copyIn ((Stack.slaves engine.stack).map StackSlave.input) engine.inputs
      engine.image }

/-- The relation allows what routine requests do with an engine. -/
class AllowsRoutine (relation : StackEngine σ → StackEngine σ → Prop) : Prop
    extends IsPreorder (StackEngine σ) relation where
  calls : ∀ {α : Type} {action : Action σ α}, Stack.IsRoutine action →
    Moves relation (call action)
  objects : ∀ engine objects, relation engine { engine with objects }
  takesIn : ∀ engine, relation engine engine.takeIn

/-- The requests that move along what routine requests do: these, and a request for the state of
one slave. -/
inductive IsRoutine : {α : Type} → Action (StackEngine σ) α → Prop
  | request {α : Type} {request : Action (StackEngine σ) α} :
      Engine.IsRoutine request → IsRoutine request
  | requestState (state slave : Int) : IsRoutine (requestState state (some slave))

variable [AllowsRoutine relation]

theorem moves_callCatching {action : Action σ α} (routine : Stack.IsRoutine action)
    (caught : StackError → Bool) (fault : StackError → Fault) :
    Moves relation (callCatching caught fault action) :=
  (AllowsRoutine.calls routine).mapFault _

theorem moves_enumerate : Moves relation (enumerate (σ := σ)) := by
  refine Moves.bind moves_needOpen ?_
  intro _
  refine Moves.bind (AllowsRoutine.calls .enumerate) ?_
  intro count
  by_cases lost : count = -1
  · simp only [if_pos lost]
    exact Moves.of_unmoved fun _ => rfl
  · simp only [if_neg lost]
    by_cases unknown : count < -1
    · simp only [if_pos unknown]
      exact Moves.of_unmoved fun _ => rfl
    · simp only [if_neg unknown]
      refine Moves.bind (Moves.modify fun engine => AllowsRoutine.objects engine []) ?_
      intro _
      exact Moves.pure _

theorem moves_exchange (timeout : Number) : Moves relation (exchange (σ := σ) timeout) := by
  refine Moves.bind moves_needOpen ?_
  intro _
  refine Moves.bind Moves.get ?_
  intro engine
  refine Moves.bind (AllowsRoutine.calls (.pushOutputs _ _ _)) ?_
  intro _
  refine Moves.bind (moves_needSlaves _) ?_
  intro _
  refine Moves.bind (AllowsRoutine.calls .send) ?_
  intro _
  refine Moves.bind (Moves.ofAccident _) ?_
  intro micros
  refine Moves.bind (AllowsRoutine.calls (.receive micros)) ?_
  intro wkc
  refine Moves.bind (Moves.modify fun engine => AllowsRoutine.takesIn engine) ?_
  intro _
  refine Moves.bind (moves_needSlaves _) ?_
  intro _
  exact Moves.pure _

theorem moves_request {request : Action (StackEngine σ) α} (asked : Engine.IsRoutine request) :
    Moves relation request := by
  cases asked with
  | enumerate => exact moves_enumerate
  | configureClocks =>
      refine Moves.bind moves_needOpen ?_
      intro _
      exact Moves.bind (AllowsRoutine.calls .configureClocks) fun _ => Moves.pure _
  | slaveInfo slave => exact Moves.bind (moves_slaveAt slave) fun _ => Moves.pure _
  | requestState state =>
      refine Moves.bind moves_needOpen ?_
      intro _
      exact Moves.bind (AllowsRoutine.calls (.writeState state)) (moves_checkRequest state)
  | checkState state timeout =>
      refine Moves.bind moves_needOpen ?_
      intro _
      refine Moves.bind (Moves.ofAccident _) ?_
      intro micros
      exact AllowsRoutine.calls (.checkState state micros)
  | readState =>
      refine Moves.bind moves_needOpen ?_
      intro _
      exact AllowsRoutine.calls .readState
  | slaveState slave => exact Moves.bind (moves_slaveAt slave) fun _ => Moves.pure _
  | upload slave entry complete size timeout =>
      refine Moves.bind (Moves.ofAccident _) ?_
      intro micros
      refine Moves.bind (moves_slaveAt slave) ?_
      intro located
      exact moves_callCatching (.upload _ _ _ _ _) _ _
  | download slave entry complete data timeout =>
      refine Moves.bind (Moves.ofAccident _) ?_
      intro micros
      refine Moves.bind (moves_slaveAt slave) ?_
      intro located
      exact moves_callCatching (.download _ _ _ _ _) _ _
  | objectList slave =>
      refine Moves.bind (moves_slaveAt slave) ?_
      intro located
      refine Moves.bind (moves_callCatching (.objects _) _ _) ?_
      intro objects
      refine Moves.bind (Moves.modify fun engine => AllowsRoutine.objects engine _) ?_
      intro _
      exact Moves.pure _
  | objectDescription slave item =>
      refine Moves.bind (moves_knownObjects slave) ?_
      intro objects
      exact Moves.bind (Moves.ofExcept _) fun _ => Moves.pure _
  | entryList slave item =>
      refine Moves.bind (moves_knownObjects slave) ?_
      intro objects
      refine Moves.bind (Moves.ofExcept _) ?_
      intro object
      refine Moves.bind Moves.get ?_
      intro engine
      refine Moves.bind (moves_callCatching (.entries _ _) _ _) ?_
      intro entries
      split
      · exact Moves.pure _
      · exact Moves.pure _
  | expectedWkc =>
      refine Moves.bind moves_needOpen ?_
      intro _
      exact Moves.bind Moves.get fun _ => Moves.pure _
  | outputRange slave => exact Moves.bind Moves.get fun _ => Moves.ofExcept _
  | inputRange slave => exact Moves.bind Moves.get fun _ => Moves.ofExcept _
  | exchange timeout => exact moves_exchange timeout

/-- Every routine request moves along what the class allows. -/
theorem moves_routine {request : Action (StackEngine σ) α} (routine : IsRoutine request) :
    Moves relation request := by
  cases routine with
  | request asked => exact moves_request asked
  | requestState state slave =>
      refine Moves.bind (moves_slaveAt slave) ?_
      intro located
      exact Moves.bind (AllowsRoutine.calls (.writeSlaveState _ _)) (moves_checkRequest state)

end StackEngine

end Fieldbus
