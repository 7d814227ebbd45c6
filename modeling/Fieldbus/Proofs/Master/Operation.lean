import Fieldbus.Master.Operation
import Fieldbus.Proofs.Master.Footprint
import Fieldbus.Proofs.Outcome

/-!
# Footprints of configuration and operation

The steps of a configuration pass, but for the two that forget and keep what was found,
change the session only.  The process-data task and the state of the bus are changed by
what opens, operates and closes it.  The stages of these have names, so that what they leave
behind can be told stage by stage.
-/

namespace Fieldbus

namespace Master

open Fieldbus.Action

variable {ε : Type} {relation : Master ε → Master ε → Prop}

instance : AllowsSession (Keep (Master.running (ε := ε))) where
  session _ _ := rfl

instance [Engine ε] : AllowsCycles (Keep (Master.running (ε := ε))) where
  lastWkc _ _ := rfl
  okCount _ _ := rfl
  errorCount _ _ := rfl
  handles _ _ := rfl

instance : AllowsSession (Keep (Master.opened (ε := ε))) where
  session _ _ := rfl

instance [Engine ε] : AllowsOperation (Keep (Master.opened (ε := ε))) where
  lastWkc _ _ := rfl
  okCount _ _ := rfl
  errorCount _ _ := rfl
  handles _ _ := rfl
  running _ _ := rfl
  inOp _ _ := rfl

section Configuration

variable [Engine ε] [AllowsTalks relation]

theorem moves_reach (state : AlState) : Moves relation (reach (ε := ε) state) := by
  refine Moves.bind (moves_requestStates _) ?_
  intro _
  exact moves_checkStates _

theorem moves_validateSizes (slave : Int) : Moves relation (validateSizes (ε := ε) slave) := by
  refine Moves.bind (moves_map slave) ?_
  intro map
  refine Moves.bind (Moves.ofAccident _) ?_
  intro sizes
  refine Moves.bind (moves_request (.slaveInfo _)) ?_
  intro info
  dsimp only
  split
  · exact Moves.pure _
  · refine Moves.bind Moves.get ?_
    intro master
    split
    · exact Moves.throw _
    · refine Moves.bind (moves_report _ _) ?_
      intro _
      exact Moves.pure _

theorem moves_validateAll (slaves : List Int) :
    Moves relation (validateAll (ε := ε) slaves) := by
  induction slaves with
  | nil => exact Moves.pure _
  | cons slave rest ih =>
      refine Moves.bind (moves_validateSizes _) ?_
      intro _
      exact ih

theorem moves_assignFrom (config : PdoConfig) (count position : Nat) :
    Moves relation (assignFrom (ε := ε) config count position) := by
  induction count generalizing position with
  | zero => exact Moves.pure _
  | succ count ih =>
      rw [assignFrom]
      cases config.lookup? position with
      | none => exact Moves.bind (Moves.pure _) fun _ => ih _
      | some lists =>
          refine Moves.bind moves_sdoTimeout ?_
          intro timeout
          refine Moves.bind (AllowsTalks.talks (Assignment.talks_configure _ _ _)) ?_
          intro _
          exact ih _

theorem moves_assign (count : Nat) : Moves relation (assign (ε := ε) count) := by
  refine Moves.bind Moves.get ?_
  intro master
  cases master.pdoConfig with
  | none => exact Moves.pure _
  | some config => exact moves_assignFrom _ _ _

omit [Engine ε] [AllowsTalks relation] in
theorem moves_recordFailure [AllowsNotices relation] (what : String) (findings : Findings) (slave : Int)
    (fault : Fault) : Moves relation (recordFailure (ε := ε) what findings slave fault) := by
  refine Moves.bind (moves_report _ _) ?_
  intro _
  exact Moves.pure _

theorem moves_discoverFrom (count position : Nat) (findings : Findings) :
    Moves relation (discoverFrom (ε := ε) count position findings) := by
  induction count generalizing position findings with
  | zero => exact Moves.pure _
  | succ count ih =>
      refine Moves.bind (Moves.catching ?_ ?_) ?_
      · refine Moves.bind (AllowsTalks.talks ?_) ?_
        · exact (Discovery.talks_readObjects _).mono Engine.Reads.isRoutine
        · intro objects
          exact Moves.pure _
      · intro fault
        exact moves_recordFailure _ _ _ _
      · intro found
        exact ih _ _

theorem moves_resolveAll (dictionary : ObjectDictionary) (slaves : List Int)
    (maps : Table Int PdoMap) (faults : Table Int Fault) :
    Moves relation (resolveAll (ε := ε) dictionary slaves maps faults) := by
  induction slaves generalizing maps faults with
  | nil => exact Moves.pure _
  | cons slave rest ih =>
      rw [resolveAll]
      split
      · exact ih _ _
      · refine Moves.bind (Moves.catching ?_ ?_) ?_
        · refine Moves.bind moves_sdoTimeout ?_
          intro timeout
          refine Moves.bind (AllowsTalks.talks ?_) ?_
          · exact (Layout.talks_resolve _ _ _).mono fun uploads => uploads.reads.isRoutine
          · intro map
            exact Moves.pure _
        · intro fault
          refine Moves.bind (moves_report _ _) ?_
          intro _
          exact Moves.pure _
        · intro outcome
          exact ih _ _

omit [Engine ε] [AllowsTalks relation] in
theorem moves_insistOnDiscovery [IsPreorder (Master ε) relation] : Moves relation (insistOnDiscovery (ε := ε)) := by
  refine Moves.bind Moves.get ?_
  intro master
  cases master.discoveryFaults with
  | nil => exact Moves.pure _
  | cons first rest =>
      dsimp only
      split
      · exact Moves.throw _
      · exact Moves.pure _

theorem moves_layOut (clears : ∀ master, relation master
      { master with dictionary := ObjectDictionary.empty, maps := [] })
    (maps : Moves relation (ask (Engine.mapImage (ε := ε)))) :
    Moves relation (layOut (ε := ε)) := by
  refine Moves.bind (Moves.modify clears) ?_
  intro _
  refine Moves.bind maps ?_
  intro _
  exact moves_request .configureClocks

theorem moves_discoverAll (keeps : ∀ master dictionary maps discoveryFaults, relation master
      { master with dictionary, maps, discoveryFaults }) (count : Nat) :
    Moves relation (discoverAll (ε := ε) count) := by
  refine Moves.bind (moves_discoverFrom _ _ _) ?_
  intro findings
  refine Moves.bind (moves_resolveAll _ _ _ _) ?_
  intro resolved
  apply Moves.modify
  intro master
  exact keeps master _ _ _

end Configuration

section Closing

variable [Engine ε] [AllowsNotices relation]

theorem moves_stopHandles [AllowsTurns relation]
    (clears : ∀ slave, Moves relation (zeroOutputs (ε := ε) slave)) (places : List Nat) :
    Moves relation (stopHandles (ε := ε) places) := by
  induction places with
  | nil => exact Moves.pure _
  | cons place rest ih =>
      refine Moves.bind (Moves.catching (moves_stopHandle clears _) ?_) ?_
      · intro fault
        refine Moves.bind (moves_handle _) ?_
        intro found
        exact moves_report _ _
      · intro _
        exact ih

theorem moves_finalExchange (exchanges : Moves relation (exchange (ε := ε))) :
    Moves relation (finalExchange (ε := ε)) := by
  refine Moves.catching ?_ ?_
  · refine Moves.bind exchanges ?_
    intro _
    exact Moves.pure _
  · intro fault
    exact moves_report _ _

/-- The last exchange before the engine is unbound: there is one if the task ran and there
are handles. -/
def farewell (wasRunning : Bool) (master : Master ε) : Action (Master ε) Unit :=
  if wasRunning && !(registeredPlaces master).isEmpty then finalExchange else pure ()

theorem moves_farewell (exchanges : Moves relation (exchange (ε := ε))) (wasRunning : Bool)
    (master : Master ε) : Moves relation (farewell wasRunning master) := by
  rw [farewell]
  split
  · exact moves_finalExchange exchanges
  · exact Moves.pure _

end Closing

section Cycles

variable [Engine ε] [AllowsCycles relation]

theorem moves_pollOperational (polls : Nat) (deadline : Binary64) :
    Moves relation (pollOperational (ε := ε) polls deadline) := by
  induction polls with
  | zero => exact Moves.pure _
  | succ polls ih =>
      refine Moves.bind Moves.get ?_
      intro master
      split
      · refine Moves.bind (moves_request (.checkState _ _)) ?_
        intro found
        split
        · exact Moves.pure _
        · exact ih
      · exact Moves.pure _

end Cycles

section Task

variable [Engine ε] [AllowsTask relation]

theorem moves_start : Moves relation (start (ε := ε)) := by
  refine Moves.bind Moves.get ?_
  intro master
  split
  · exact Moves.pure _
  · refine Moves.bind (AllowsEngine.tells .taskStarted) ?_
    intro _
    refine Moves.bind (Moves.modify fun master => AllowsTask.running master true) ?_
    intro _
    refine Moves.bind Moves.get ?_
    intro later
    refine Moves.bind (Moves.ofAccident _) ?_
    intro cycle
    exact moves_report _ _

theorem moves_stop : Moves relation (stop (ε := ε)) := by
  refine Moves.bind Moves.get ?_
  intro master
  split
  · refine Moves.bind (AllowsEngine.tells .taskJoined) ?_
    intro _
    exact Moves.modify fun master => AllowsTask.running master false
  · exact Moves.pure _

omit [AllowsTask relation] in
/-- Ending the task always succeeds; the engine is told if the task ran. -/
theorem exists_stop (master : Master ε) :
    ∃ after, stop master = .ok () after ∧ after.running = false ∧ after.inOp = master.inOp ∧
      after.opened = master.opened ∧ after.handles = master.handles ∧
      after.engine = if master.running then Engine.taskJoined master.engine else master.engine := by
  rw [stop, bind_of_ok (get_apply master)]
  cases runs : master.running with
  | true => exact ⟨_, rfl, rfl, rfl, rfl, rfl, rfl⟩
  | false => exact ⟨master, rfl, runs, rfl, rfl, rfl, rfl⟩

omit [AllowsTask relation] in
theorem running_stop (master : Master ε) : (final (stop master)).running = false := by
  obtain ⟨after, stopped, ended, _⟩ := exists_stop master
  rw [stopped]
  exact ended

end Task

section Stages

variable [Engine ε]

/-- The stage before the process-data task starts: the slaves reach the safe-operational state
and the outputs are seeded from the queues of the handles. -/
def seed : Action (Master ε) Unit := do
  reach .safeOp
  report .info "Reached SAFE-OP state"
  forPlaces applyPending (registeredPlaces (← get))

def watch (timeout : Number) : Action (Master ε) Bool := do
  requestStates AlState.op.code
  let timeout ← Action.ofAccident (seconds timeout)
  let deadline := (Engine.now (← get).engine).add timeout
  pollOperational pollLimit deadline

/-- The stage that starts the process-data task and waits for the operational state. -/
def await (timeout : Number) : Action (Master ε) Bool := do
  start
  watch timeout

def blame : Action (Master ε) Unit := do
  throw (.connection (.operationalNotReached (← stateReport)))

/-- The stage after the operational state was waited for in vain. -/
def giveUp : Action (Master ε) Unit := do
  stop
  blame

/-- Once slaves were counted, they are reported and reach the pre-operational state. -/
def welcome (count : Int) : Action (Master ε) Nat := do
  if count ≤ 0 then throw (.connection .noSlaves)
  report .info s!"Found {count} EtherCAT slave(s)"
  reach .preOp
  return count.toNat

/-- The stage of a configuration pass that finds the slaves. -/
def find : Action (Master ε) Nat := do
  reach .init
  welcome (← ask Engine.enumerate)

theorem goOperational_eq (timeout : Number) :
    goOperational (ε := ε) timeout = (do
      seed
      if ← await timeout then
        modify fun master => { master with inOp := true }
        report .info "Reached OP state, bus ready"
      else giveUp) := by
  simp only [goOperational, seed, await, watch, giveUp, blame, bind_assoc]

theorem prepare_eq :
    prepare (ε := ε) = (do
      stop
      modify fun master => { master with inOp := false }
      find) := by
  simp only [prepare, find, welcome]

theorem moves_welcome [AllowsTalks relation] (count : Int) :
    Moves relation (welcome (ε := ε) count) := by
  rw [welcome]
  split
  · exact Moves.throw _
  · refine Moves.bind (moves_report _ _) ?_
    intro _
    refine Moves.bind (moves_reach _) ?_
    intro _
    exact Moves.pure _

theorem moves_find [AllowsTalks relation] : Moves relation (find (ε := ε)) := by
  refine Moves.bind (moves_reach _) ?_
  intro _
  refine Moves.bind (moves_request .enumerate) ?_
  intro count
  exact moves_welcome count

theorem moves_seed [AllowsCycles relation] : Moves relation (seed (ε := ε)) := by
  refine Moves.bind (moves_reach _) ?_
  intro _
  refine Moves.bind (moves_report _ _) ?_
  intro _
  refine Moves.bind Moves.get ?_
  intro master
  exact moves_forPlaces moves_applyPending _

theorem moves_watch [AllowsCycles relation] (timeout : Number) :
    Moves relation (watch (ε := ε) timeout) := by
  refine Moves.bind (moves_requestStates _) ?_
  intro _
  refine Moves.bind (Moves.ofAccident _) ?_
  intro seconds
  refine Moves.bind Moves.get ?_
  intro master
  exact moves_pollOperational _ _

theorem moves_await [AllowsTask relation] (timeout : Number) :
    Moves relation (await (ε := ε) timeout) := by
  refine Moves.bind moves_start ?_
  intro _
  exact moves_watch timeout

theorem moves_blame [AllowsTalks relation] : Moves relation (blame (ε := ε)) := by
  refine Moves.bind moves_stateReport ?_
  intro text
  exact Moves.throw _

theorem moves_giveUp [AllowsTask relation] : Moves relation (giveUp (ε := ε)) := by
  refine Moves.bind moves_stop ?_
  intro _
  exact moves_blame

end Stages

section Operation

variable [Engine ε] [AllowsOperation relation]

theorem moves_goOperational (timeout : Number) :
    Moves relation (goOperational (ε := ε) timeout) := by
  rw [goOperational_eq]
  refine Moves.bind moves_seed ?_
  intro _
  refine Moves.bind (moves_await _) ?_
  intro isReached
  split
  · refine Moves.bind (Moves.modify fun master => AllowsOperation.inOp master true) ?_
    intro _
    exact moves_report _ _
  · exact moves_giveUp

theorem moves_prepare : Moves relation (prepare (ε := ε)) := by
  rw [prepare_eq]
  refine Moves.bind moves_stop ?_
  intro _
  refine Moves.bind (Moves.modify fun master => AllowsOperation.inOp master false) ?_
  intro _
  exact moves_find

/-- A configuration pass moves along what its two steps move along that forget and keep
what was found. -/
theorem moves_configure (forgets : Moves relation (layOut (ε := ε)))
    (keeps : ∀ count, Moves relation (discoverAll (ε := ε) count)) :
    Moves relation (configure (ε := ε)) := by
  refine Moves.bind moves_prepare ?_
  intro count
  refine Moves.bind (moves_assign _) ?_
  intro _
  refine Moves.bind forgets ?_
  intro _
  refine Moves.bind (keeps _) ?_
  intro _
  refine Moves.bind Moves.get ?_
  intro master
  refine Moves.bind (moves_validateAll _) ?_
  intro _
  exact moves_insistOnDiscovery

def opening (operational : Bool) : Action (Master ε) Unit := do
  configure
  if operational then goOperational operationalTimeout

/-- What opening does after its configuration pass. -/
theorem moves_from_configured (operational : Bool) (master : Master ε) :
    relation (final (configure master)) (final (opening operational master)) := by
  have goesOn (_ : Unit) : Moves relation
      (if operational then goOperational operationalTimeout else pure () :
        Action (Master ε) Unit) := by
    split
    · exact moves_goOperational _
    · exact Moves.pure _
  exact Moves.final_bind goesOn configure master

theorem moves_opening (configures : Moves relation (configure (ε := ε))) (operational : Bool) :
    Moves relation (opening (ε := ε) operational) := by
  intro master
  exact IsTrans.trans _ _ _ (configures master) (moves_from_configured operational master)

end Operation

section States

variable [Engine ε] [AllowsStates relation]

theorem moves_disconnect : Moves relation (disconnect (ε := ε)) := by
  refine Moves.bind AllowsStates.disconnects ?_
  intro _
  exact Moves.modify fun master => AllowsStates.opened master false

theorem moves_close : Moves relation (close (ε := ε)) := by
  refine Moves.bind Moves.get ?_
  intro master
  refine Moves.bind (moves_stopHandles moves_zeroOutputs _) ?_
  intro _
  refine Moves.bind Moves.get ?_
  intro stopped
  refine Moves.bind (Moves.modify fun master => AllowsOperation.inOp master false) ?_
  intro _
  refine Moves.bind moves_stop ?_
  intro _
  refine Moves.bind Moves.get ?_
  intro ended
  split
  · refine Moves.bind (Moves.ensuring ?_ moves_disconnect) ?_
    · exact moves_farewell moves_exchange stopped.running ended
    · intro _
      exact moves_report _ _
  · exact Moves.pure _

theorem moves_openBus (configures : Moves relation (configure (ε := ε))) (operational : Bool) :
    Moves relation (openBus (ε := ε) operational) := by
  refine Moves.bind Moves.get ?_
  intro master
  refine Moves.bind (AllowsStates.connects _) ?_
  intro _
  refine Moves.bind (Moves.modify fun master => AllowsStates.opened master true) ?_
  intro _
  refine Moves.catching (moves_opening configures operational) ?_
  intro fault
  refine Moves.bind moves_close ?_
  intro _
  exact Moves.throw _

end States

end Master

end Fieldbus
