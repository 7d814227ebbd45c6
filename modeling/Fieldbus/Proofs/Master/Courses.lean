import Fieldbus.Proofs.Master.Opening
import Fieldbus.Proofs.Master.Passes

/-!
# Courses of passes and of opening

A configuration pass either stops before its engine has laid out the image, or lays it out and
goes on to discovery.  Opening either fails to bind the engine, or ends as its pass ends, or
closes the bus again.  What a pass or an opening leaves behind is told course by course.
-/

namespace Fieldbus

namespace Master

open Fieldbus.Action

variable {ε : Type} [Engine ε]

/-- What a configuration pass does after the image is laid out. -/
def furnish (count : Nat) : Action (Master ε) Unit := do
  ask Engine.configureClocks
  discoverAll count
  validateAll ((← get).maps.map Prod.fst)
  insistOnDiscovery

/-- A pass gets ready, forgets what it found before, lays out the image, and goes on. -/
theorem configure_eq_furnish :
    configure (ε := ε) = (do
      let count ← ready
      modify fun master => { master with dictionary := ObjectDictionary.empty, maps := [] }
      let _ ← ask Engine.mapImage
      furnish count) := by
  simp only [configure_eq, survey, layOut, furnish, bind_assoc]

theorem moves_furnish {relation : Master ε → Master ε → Prop} [AllowsTalks relation] {count : Nat}
    (keeps : Moves relation (discoverAll (ε := ε) count)) :
    Moves relation (furnish (ε := ε) count) := by
  refine Moves.bind (moves_request .configureClocks) ?_
  intro _
  refine Moves.bind keeps ?_
  intro _
  refine Moves.bind Moves.get ?_
  intro master
  refine Moves.bind (moves_validateAll _) ?_
  intro _
  exact moves_insistOnDiscovery

/-- The engine when a configuration pass has laid out its image, if the pass gets so far. -/
def mapped? (master : Master ε) : Option ε :=
  match ready master with
  | .error _ _ => none
  | .ok _ between =>
      match Engine.mapImage between.engine with
      | .error _ _ => none
      | .ok _ engine => some engine

/-- A master that has forgotten what it found, with what its engine has become. -/
def blanked (master : Master ε) (engine : ε) : Master ε :=
  { master with
    session := { master.session with engine }, dictionary := ObjectDictionary.empty, maps := [] }

/-- How a configuration pass goes. -/
inductive PassCourse (master : Master ε) : Prop
  | unready {fault : Fault} {after : Master ε}
      (unmapped : master.mapped? = none)
      (readying : ready master = .error fault after)
      (outcome : configure master = .error fault after)
  | unmapped {count : Nat} {between : Master ε} {fault : Fault} {engine : ε}
      (unmapped : master.mapped? = none)
      (readying : ready master = .ok count between)
      (mapping : Engine.mapImage between.engine = .error fault engine)
      (outcome : configure master = .error fault (between.blanked engine))
  | mapped {count : Nat} {between : Master ε} {size : Int} {engine : ε}
      (mapped : master.mapped? = some engine)
      (readying : ready master = .ok count between)
      (mapping : Engine.mapImage between.engine = .ok size engine)
      (outcome : configure master = furnish count (between.blanked engine))

theorem passCourse (master : Master ε) : PassCourse master := by
  cases readying : ready master with
  | error fault after =>
      refine .unready ?_ readying ?_
      · simp only [mapped?, readying]
      · rw [configure_eq_furnish, bind_of_error readying]
  | ok count between =>
      cases mapping : Engine.mapImage between.engine with
      | error fault engine =>
          refine .unmapped ?_ readying mapping ?_
          · simp only [mapped?, readying, mapping]
          · rw [configure_eq_furnish, bind_of_ok readying, bind_of_ok (modify_apply _ _)]
            exact bind_of_error (ask_of_error mapping)
      | ok size engine =>
          refine .mapped ?_ readying mapping ?_
          · simp only [mapped?, readying, mapping]
          · rw [configure_eq_furnish, bind_of_ok readying, bind_of_ok (modify_apply _ _)]
            exact bind_of_ok (ask_of_ok mapping)

/-- A master that has bound its engine and is about to configure the bus. -/
def onceBound (bound : Master ε) : Master ε :=
  { bound with opened := true }

/-- How opening a bus goes. -/
inductive OpenCourse (operational : Bool) (master : Master ε) : Prop
  | unbound {fault : Fault} {after : Master ε}
      (binding : ask (Engine.connect master.config.adapter) master = .error fault after)
      (outcome : openBus operational master = .error fault after)
  | kept {bound : Master ε}
      (binding : ask (Engine.connect master.config.adapter) master = .ok () bound)
      (uncaught : ∀ fault between, opening operational bound.onceBound = .error fault between →
        fault.isLibrary = false)
      (outcome : openBus operational master = opening operational bound.onceBound)
  | closed {bound between : Master ε} {fault : Fault}
      (binding : ask (Engine.connect master.config.adapter) master = .ok () bound)
      (failing : opening operational bound.onceBound = .error fault between)
      (caught : fault.isLibrary = true)
      (opened : between.opened = true)
      (outcome : final (openBus operational master) = final (close between))

theorem openCourse (operational : Bool) (master : Master ε) : OpenCourse operational master := by
  cases binding : ask (Engine.connect master.config.adapter) master with
  | error fault after =>
      refine .unbound binding ?_
      rw [openBus, bind_of_ok (get_apply master), bind_of_error binding]
  | ok _ bound =>
      have goesOn : openBus operational master =
          Action.catching Fault.isLibrary (opening operational) (fun fault => do
            close
            throw fault) bound.onceBound := openBus_of_bound binding operational
      cases opens : opening operational bound.onceBound with
      | ok _ after =>
          refine .kept binding ?_ ?_
          · intro fault between failing
            rw [opens] at failing
            cases failing
          · rw [goesOn, opens]
            exact catching_of_ok opens
      | error fault between =>
          cases isLibrary : fault.isLibrary with
          | false =>
              refine .kept binding ?_ ?_
              · intro cause other failing
                rw [opens] at failing
                cases failing
                exact isLibrary
              · rw [goesOn, opens]
                exact catching_of_uncaught opens isLibrary
          | true =>
              have ends (_ : Unit) : Moves (Keep id) (throw fault : Action (Master ε) Unit) :=
                Moves.throw fault
              refine .closed binding opens isLibrary (opened_of_opening_error rfl opens) ?_
              have handled := congrArg final (goesOn.trans (catching_of_caught opens isLibrary))
              exact handled.trans (Moves.final_bind ends close between)

end Master

end Fieldbus
