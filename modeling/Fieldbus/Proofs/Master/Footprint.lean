import Fieldbus.Master.Mailbox
import Fieldbus.Master.States
import Fieldbus.Master.Task
import Fieldbus.Proofs.Dialogue
import Fieldbus.Proofs.Outcome

/-!
# Footprints of the functions of a master

Which fields of a master a function changes.  A footprint is a class of preorders that
allow any change of these fields; a function with the footprint moves along all of them.
The classes form a chain: what works with the engine only, what takes part in cycles, what
starts and ends the process-data task, what brings the bus to the operational state, and
what opens and closes it.  A relation need not allow every change of the engine: the chain
starts from what a master does with it.  Smaller classes are for what has to be told apart, and
a relation that allows any session is a short way into the chain.
-/

namespace Fieldbus

namespace Master

open Fieldbus.Action

variable {ε α : Type}

class AllowsNotices (relation : Master ε → Master ε → Prop) : Prop
    extends IsPreorder (Master ε) relation where
  notices : ∀ master notices, relation master { master with session := ⟨master.engine, notices⟩ }

class AllowsHandles (relation : Master ε → Master ε → Prop) : Prop
    extends IsPreorder (Master ε) relation where
  handles : ∀ master handles, relation master { master with handles }

/-- What a turn in a cycle may make of a handle: it is of the same slave, takes part as before, and
no write is queued. -/
def IsTurn (change : Handle → Handle) : Prop :=
  ∀ handle, (change handle).slave = handle.slave ∧
    (change handle).registered = handle.registered ∧ (change handle).pending ⊆ handle.pending

/-- The relation allows that handles take their turns. -/
class AllowsTurns (relation : Master ε → Master ε → Prop) : Prop
    extends IsPreorder (Master ε) relation where
  turns : ∀ master place change, IsTurn change →
    relation master { master with handles := master.handles.modify place change }

class AllowsSession (relation : Master ε → Master ε → Prop) : Prop
    extends IsPreorder (Master ε) relation where
  session : ∀ master session, relation master { master with session }

/-- The relation allows any dialogue with the engine that neither binds nor unbinds it and does not
lay out its image. -/
class AllowsTalks [Engine ε] (relation : Master ε → Master ε → Prop) : Prop
    extends AllowsNotices relation where
  talks : ∀ {α : Type} {action : Action (Session ε) α},
    Session.Talks Engine.IsRoutine Session.anyFault action → Moves relation (inSession action)

/-- The relation allows all that a master does with its engine: any event that it is told, and
the changes of the image by which outputs are cleared and values set, as well. -/
class AllowsEngine [Engine ε] (relation : Master ε → Master ε → Prop) : Prop
    extends AllowsTalks relation where
  tells : ∀ {change : ε → ε}, Engine.IsEvent change → Moves relation (changeEngine change)
  zeroOutputs : ∀ slave, Moves relation (zeroOutputs slave)
  setValue : ∀ slave entry value, Moves relation (setValue slave entry value)

class AllowsCounters (relation : Master ε → Master ε → Prop) : Prop
    extends IsPreorder (Master ε) relation where
  lastWkc : ∀ master lastWkc, relation master { master with lastWkc }
  okCount : ∀ master okCount, relation master { master with okCount }
  errorCount : ∀ master errorCount, relation master { master with errorCount }

/-- The relation allows what cycles change: the counters and the handles as well. -/
class AllowsCycles [Engine ε] (relation : Master ε → Master ε → Prop) : Prop
    extends AllowsEngine relation, AllowsCounters relation, AllowsHandles relation

/-- The relation allows that the task starts and ends as well. -/
class AllowsTask [Engine ε] (relation : Master ε → Master ε → Prop) : Prop
    extends AllowsCycles relation where
  running : ∀ master running, relation master { master with running }

/-- The relation allows that the bus becomes operational as well. -/
class AllowsOperation [Engine ε] (relation : Master ε → Master ε → Prop) : Prop
    extends AllowsTask relation where
  inOp : ∀ master inOp, relation master { master with inOp }

/-- The relation allows that the bus is opened and closed as well. -/
class AllowsStates [Engine ε] (relation : Master ε → Master ε → Prop) : Prop
    extends AllowsOperation relation where
  connects : ∀ adapter, Moves relation (ask (Engine.connect (ε := ε) adapter))
  disconnects : Moves relation (ask (Engine.disconnect (ε := ε)))
  opened : ∀ master opened, relation master { master with opened }

variable {relation : Master ε → Master ε → Prop}

instance [AllowsSession relation] : AllowsNotices relation where
  notices master _ := AllowsSession.session master _

instance [AllowsHandles relation] : AllowsTurns relation where
  turns master _ _ _ := AllowsHandles.handles master _

section Unmoved

variable [IsPreorder (Master ε) relation]

theorem moves_map (slave : Int) : Moves relation (map (ε := ε) slave) := by
  apply Moves.of_unmoved
  intro master
  rw [map]
  cases master.maps.get? slave with
  | none => rfl
  | some found => rfl

theorem moves_sdoTimeout : Moves relation (sdoTimeout (ε := ε)) := by
  refine Moves.bind Moves.get ?_
  intro master
  refine Moves.bind (Moves.ofAccident _) ?_
  intro timeout
  exact Moves.pure _

theorem moves_handle (place : Nat) : Moves relation (handle (ε := ε) place) := by
  refine Moves.bind Moves.get ?_
  intro master
  cases master.handles[place]? with
  | none => exact Moves.throw _
  | some found => exact Moves.pure _

theorem moves_checkValue (slave : Int) (entry : EntryIndex) (value : Value) :
    Moves relation (checkValue (ε := ε) slave entry value) := by
  refine Moves.bind (moves_map slave) ?_
  intro map
  refine Moves.bind (Moves.ofExcept _) ?_
  intro _
  exact Moves.pure _

theorem moves_timeoutOr (timeout : Option Number) :
    Moves relation (timeoutOr (ε := ε) timeout) := by
  cases timeout with
  | none => exact moves_sdoTimeout
  | some timeout => exact Moves.pure _

theorem moves_image [Engine ε] : Moves relation (image (ε := ε)) := by
  refine Moves.bind Moves.get ?_
  intro master
  exact Moves.pure _

theorem moves_slaveCount [Engine ε] : Moves relation (slaveCount (ε := ε)) := by
  refine Moves.bind Moves.get ?_
  intro master
  exact Moves.pure _

end Unmoved

section Notices

variable [AllowsNotices relation]

theorem moves_report (level : Level) (text : Text) :
    Moves relation (report (ε := ε) level text) := by
  intro master
  exact AllowsNotices.notices master _

theorem moves_reportAll (notices : List Notice) :
    Moves relation (reportAll (ε := ε) notices) := by
  induction notices with
  | nil => exact Moves.pure _
  | cons notice rest ih =>
      refine Moves.bind ?_ fun _ => ih
      intro master
      exact AllowsNotices.notices master _

/-- Reading values moves along what asking for the ranges moves along. -/
theorem moves_values_of [Engine ε] {slave : Int}
    (inputs : Moves relation (ask (Engine.inputRange (ε := ε) slave)))
    (outputs : Moves relation (ask (Engine.outputRange (ε := ε) slave))) :
    Moves relation (values (ε := ε) slave) := by
  refine Moves.bind (moves_map slave) ?_
  intro map
  refine Moves.bind inputs ?_
  intro inputs
  refine Moves.bind outputs ?_
  intro outputs
  refine Moves.bind moves_image ?_
  intro image
  refine Moves.bind (moves_reportAll _) ?_
  intro _
  exact Moves.pure _

section Writes

omit [AllowsNotices relation]

variable [Engine ε] [IsPreorder (Master ε) relation] {slave : Int}

/-- Clearing outputs moves along what asking for their range and writing the image move along. -/
theorem moves_zeroOutputs_of
    (asks : Moves relation (ask (Engine.outputRange (ε := ε) slave)))
    (writes : ∀ image, Moves relation (setImage (ε := ε) image)) :
    Moves relation (zeroOutputs (ε := ε) slave) := by
  refine Moves.bind asks ?_
  intro range
  refine Moves.bind moves_image ?_
  intro image
  exact writes _

theorem moves_setValue_of {entry : EntryIndex} {value : Value}
    (asks : Moves relation (ask (Engine.outputRange (ε := ε) slave)))
    (writes : ∀ image, Moves relation (setImage (ε := ε) image)) :
    Moves relation (setValue (ε := ε) slave entry value) := by
  refine Moves.bind (moves_map slave) ?_
  intro map
  refine Moves.bind asks ?_
  intro range
  refine Moves.bind moves_image ?_
  intro image
  refine Moves.bind (Moves.ofExcept _) ?_
  intro outputs
  exact writes _

end Writes

omit [AllowsNotices relation] in
theorem moves_currentValues_of [Engine ε] [IsPreorder (Master ε) relation] {slave : Int}
    (reads : Moves relation (values (ε := ε) slave)) :
    Moves relation (currentValues (ε := ε) slave) := by
  refine Moves.catching ?_ ?_
  · refine Moves.bind reads ?_
    intro values
    exact Moves.pure _
  · intro fault
    exact Moves.pure _

end Notices

section Session

variable [AllowsSession relation]

theorem moves_inSession (action : Action (Session ε) α) : Moves relation (inSession action) :=
  Moves.within AllowsSession.session

theorem moves_ask (action : Action ε α) : Moves relation (ask action) :=
  moves_inSession _

theorem moves_changeEngine (change : ε → ε) : Moves relation (changeEngine change) := by
  intro master
  exact AllowsSession.session master _

instance [Engine ε] : AllowsEngine relation where
  talks _ := moves_inSession _
  tells _ := moves_changeEngine _
  zeroOutputs _ := moves_zeroOutputs_of (moves_ask _) fun _ => moves_changeEngine _
  setValue _ _ _ := moves_setValue_of (moves_ask _) fun _ => moves_changeEngine _

end Session

/-- What is asked of the engine step by step is asked of it at once. -/
theorem ask_bind {β : Type} (first : Action ε α) (next : α → Action ε β) :
    ask (first >>= next) = ask first >>= fun value => ask (next value) := by
  funext master
  cases outcome : first master.engine with
  | ok value engine =>
      rw [bind_of_ok (ask_of_ok outcome)]
      cases more : next value engine with
      | ok result after => rw [ask_of_ok ((bind_of_ok outcome).trans more), ask_of_ok more]
      | error fault after =>
          rw [ask_of_error ((bind_of_ok outcome).trans more), ask_of_error more]
  | error fault engine =>
      rw [bind_of_error (ask_of_error outcome), ask_of_error (bind_of_error outcome)]

theorem along_inSession {inner : ε → ε → Prop} [IsPreorder ε inner]
    {asks : ∀ {β : Type}, Action ε β → Prop} {throws : Fault → Prop}
    (asked : ∀ {β : Type} {request : Action ε β}, asks request → Moves inner request)
    {action : Action (Session ε) α} (talks : Session.Talks asks throws action) :
    Moves (Along Master.engine inner) (inSession action) := by
  have session : Moves (Along Session.engine inner) action :=
    talks.moves (fun allowed => Moves.within_along (asked allowed) fun _ _ moved => moved)
      fun _ session => refl session.engine
  exact Moves.within_along session fun _ _ moved => moved

theorem along_ask {inner : ε → ε → Prop} {request : Action ε α} (moves : Moves inner request) :
    Moves (Along Master.engine inner) (ask request) := by
  have session : Moves (Along Session.engine inner) (Session.ask request) :=
    Moves.within_along moves fun _ _ moved => moved
  exact Moves.within_along session fun _ _ moved => moved

theorem preserve_inSession {asks : ∀ {β : Type}, Action ε β → Prop} {throws : Fault → Prop}
    {property : ε → Prop}
    (asked : ∀ {β : Type} {request : Action ε β}, asks request → Moves (Preserve property) request)
    {action : Action (Session ε) α} (talks : Session.Talks asks throws action) :
    Moves (Preserve fun master : Master ε => property master.engine) (inSession action) :=
  along_inSession asked talks

theorem preserve_ask {property : ε → Prop} {request : Action ε α}
    (keeps : Moves (Preserve property) request) :
    Moves (Preserve fun master : Master ε => property master.engine) (ask request) :=
  along_ask keeps

section Talks

variable [Engine ε] [AllowsTalks relation]

theorem moves_request {request : Action ε α} (asked : Engine.IsRoutine request) :
    Moves relation (ask request) :=
  AllowsTalks.talks (.ask asked)

theorem moves_slavesFrom (count position : Nat) :
    Moves relation (ask (Engine.slavesFrom (ε := ε) count position)) := by
  induction count generalizing position with
  | zero =>
      apply Moves.of_unmoved
      intro master
      rfl
  | succ count ih =>
      rw [Engine.slavesFrom, ask_bind]
      refine Moves.bind (moves_request (.slaveInfo _)) ?_
      intro info
      rw [ask_bind]
      refine Moves.bind (ih _) ?_
      intro more
      apply Moves.of_unmoved
      intro master
      rfl

theorem moves_values (slave : Int) : Moves relation (values (ε := ε) slave) :=
  moves_values_of (moves_request (.inputRange _)) (moves_request (.outputRange _))

theorem moves_currentValues (slave : Int) :
    Moves relation (currentValues (ε := ε) slave) :=
  moves_currentValues_of (moves_values slave)

theorem moves_requestStates (state : Int) :
    Moves relation (requestStates (ε := ε) state) :=
  moves_request (.requestState state)

theorem moves_checkStates (state : Int) : Moves relation (checkStates (ε := ε) state) := by
  refine Moves.bind (moves_request (.checkState _ _)) ?_
  intro found
  split
  · exact Moves.throw _
  · exact Moves.pure _

theorem moves_statesFrom (count position : Nat) :
    Moves relation (statesFrom (ε := ε) count position) := by
  induction count generalizing position with
  | zero => exact Moves.pure _
  | succ count ih =>
      refine Moves.bind (moves_request (.slaveState _)) ?_
      intro answer
      obtain ⟨code, status⟩ := answer
      cases known : AlState.ofCode? code with
      | none =>
          simp only [known]
          exact Moves.throw _
      | some state =>
          simp only [known]
          refine Moves.bind (ih _) ?_
          intro more
          exact Moves.pure _

theorem moves_states : Moves relation (states (ε := ε)) := by
  refine Moves.bind (moves_request .readState) ?_
  intro _
  refine Moves.bind moves_slaveCount ?_
  intro count
  exact moves_statesFrom _ _

theorem moves_slaves : Moves relation (slaves (ε := ε)) := by
  refine Moves.bind moves_slaveCount ?_
  intro count
  exact moves_slavesFrom _ _

theorem moves_stateReport : Moves relation (stateReport (ε := ε)) := by
  refine Moves.bind (moves_request .readState) ?_
  intro _
  refine Moves.bind moves_slaves ?_
  intro infos
  split
  · exact Moves.pure _
  · exact Moves.pure _

theorem moves_upload (slave : Int) (entry : EntryIndex) (complete : Bool) (size : Int)
    (timeout : Option Number) :
    Moves relation (upload (ε := ε) slave entry complete size timeout) := by
  refine Moves.bind (moves_timeoutOr _) ?_
  intro timeout
  exact moves_request (.upload _ _ _ _ _)

theorem moves_download (slave : Int) (entry : EntryIndex) (data : Bytes) (complete : Bool)
    (timeout : Option Number) :
    Moves relation (download (ε := ε) slave entry data complete timeout) := by
  refine Moves.bind (moves_timeoutOr _) ?_
  intro timeout
  exact moves_request (.download _ _ _ _ _)

theorem moves_readEntry (slave : Int) (entry : EntryIndex) (timeout : Option Number) :
    Moves relation (readEntry (ε := ε) slave entry timeout) := by
  refine Moves.bind Moves.get ?_
  intro master
  refine Moves.bind (Moves.ofExcept _) ?_
  intro info
  split
  · exact Moves.throw _
  · refine Moves.bind (moves_upload _ _ _ _ _) ?_
    intro raw
    exact Moves.ofExcept _

theorem moves_readAddress (slave : Int) (address : EntryAddress) (timeout : Option Number) :
    Moves relation (readAddress (ε := ε) slave address timeout) := by
  refine Moves.bind Moves.get ?_
  intro master
  refine Moves.bind (Moves.ofExcept _) ?_
  intro entry
  exact moves_readEntry _ _ _

theorem moves_readComplete (slave index : Int) (includeFirst : Bool)
    (timeout : Option Number) :
    Moves relation (readComplete (ε := ε) slave index includeFirst timeout) := by
  refine Moves.bind Moves.get ?_
  intro master
  refine Moves.bind (Moves.ofExcept _) ?_
  intro object
  refine Moves.bind (moves_upload _ _ _ _ _) ?_
  intro raw
  refine Moves.bind (Moves.ofExcept _) ?_
  intro values
  exact Moves.pure _

theorem moves_writeEntry (slave : Int) (entry : EntryIndex) (value : Value)
    (timeout : Option Number) :
    Moves relation (writeEntry (ε := ε) slave entry value timeout) := by
  refine Moves.bind (Moves.ofExcept _) ?_
  intro data
  exact moves_download _ _ _ _ _

end Talks

section Engine

variable [Engine ε] [AllowsEngine relation]

theorem moves_zeroOutputs (slave : Int) : Moves relation (zeroOutputs (ε := ε) slave) :=
  AllowsEngine.zeroOutputs slave

theorem moves_setValue (slave : Int) (entry : EntryIndex) (value : Value) :
    Moves relation (setValue (ε := ε) slave entry value) :=
  AllowsEngine.setValue slave entry value

theorem moves_applyWrites (slave : Int) (writes : List (EntryIndex × Value)) :
    Moves relation (applyWrites (ε := ε) slave writes) := by
  induction writes with
  | nil => exact Moves.pure _
  | cons write rest ih =>
      refine Moves.bind (moves_setValue _ _ _) ?_
      intro _
      exact ih

end Engine

section Handles

variable [AllowsHandles relation]

theorem moves_changeHandle (place : Nat) (change : Handle → Handle) :
    Moves relation (changeHandle (ε := ε) place change) := by
  apply Moves.modify
  intro master
  exact AllowsHandles.handles master _

theorem moves_register (slave : Int) (observes : Bool) :
    Moves relation (register (ε := ε) slave observes) := by
  intro master
  exact AllowsHandles.handles master _

theorem moves_unregister (place : Nat) : Moves relation (unregister (ε := ε) place) :=
  moves_changeHandle _ _

end Handles

section Turns

variable [AllowsTurns relation]

theorem moves_turn (place : Nat) {change : Handle → Handle} (turn : IsTurn change) :
    Moves relation (changeHandle (ε := ε) place change) := by
  apply Moves.modify
  intro master
  exact AllowsTurns.turns master place change turn

theorem moves_empty (place : Nat) :
    Moves relation (changeHandle (ε := ε) place fun handle => { handle with pending := [] }) :=
  moves_turn place fun _ => ⟨rfl, rfl, List.nil_subset _⟩

theorem moves_stopHandle [Engine ε]
    (clears : ∀ slave, Moves relation (zeroOutputs (ε := ε) slave)) (place : Nat) :
    Moves relation (stopHandle (ε := ε) place) := by
  refine Moves.bind (moves_handle _) ?_
  intro found
  refine Moves.bind (moves_empty _) ?_
  intro _
  exact clears _

end Turns

section Updates

variable [Engine ε] [AllowsEngine relation] [AllowsTurns relation]

theorem moves_applyPending (place : Nat) : Moves relation (applyPending (ε := ε) place) := by
  refine Moves.bind (moves_handle _) ?_
  intro found
  refine Moves.bind (moves_empty _) ?_
  intro _
  exact moves_applyWrites _ _

theorem moves_updateHandle (place : Nat) : Moves relation (updateHandle (ε := ε) place) := by
  refine Moves.bind (moves_applyPending _) ?_
  intro _
  refine Moves.bind (moves_handle _) ?_
  intro found
  refine Moves.bind (moves_currentValues _) ?_
  intro values
  exact moves_turn place fun _ => ⟨rfl, rfl, List.Subset.refl _⟩

end Updates

theorem moves_exchange_of [Engine ε] [AllowsCounters relation]
    (exchanges : ∀ timeout, Moves relation (ask (ε := ε) (Engine.exchange timeout)))
    (expects : Moves relation (ask (ε := ε) Engine.expectedWkc)) :
    Moves relation (exchange (ε := ε)) := by
  refine Moves.bind Moves.get ?_
  intro master
  refine Moves.bind (Moves.ofAccident _) ?_
  intro timeout
  refine Moves.bind (exchanges _) ?_
  intro wkc
  refine Moves.bind (Moves.modify fun master => AllowsCounters.lastWkc master wkc) ?_
  intro _
  refine Moves.bind expects ?_
  intro expected
  split
  · refine Moves.bind (Moves.modify fun master => AllowsCounters.okCount master _) ?_
    intro _
    exact Moves.pure _
  · refine Moves.bind (Moves.modify fun master => AllowsCounters.errorCount master _) ?_
    intro _
    exact Moves.pure _

section Cycles

variable [Engine ε] [AllowsCycles relation]

theorem moves_queue (place : Nat) (entry : EntryIndex) (value : Value) :
    Moves relation (queue (ε := ε) place entry value) := by
  refine Moves.bind (moves_handle _) ?_
  intro found
  refine Moves.bind Moves.get ?_
  intro master
  split
  · refine Moves.bind (moves_checkValue _ _ _) ?_
    intro _
    exact moves_changeHandle _ _
  · exact moves_changeHandle _ _

omit [Engine ε] [AllowsCycles relation] in
theorem moves_forPlaces [IsPreorder (Master ε) relation] {action : Nat → Action (Master ε) Unit}
    (moves : ∀ place, Moves relation (action place)) (places : List Nat) :
    Moves relation (forPlaces action places) := by
  induction places with
  | nil => exact Moves.pure _
  | cons place rest ih =>
      refine Moves.bind (moves place) ?_
      intro _
      exact ih

omit [AllowsCycles relation] in
theorem moves_exchange [AllowsTalks relation] [AllowsCounters relation] :
    Moves relation (exchange (ε := ε)) :=
  moves_exchange_of (fun _ => moves_request (.exchange _)) (moves_request .expectedWkc)

theorem moves_cycle : Moves relation (cycle (ε := ε)) := by
  refine Moves.bind moves_exchange ?_
  intro wkc
  refine Moves.bind Moves.get ?_
  intro master
  refine Moves.bind (moves_forPlaces moves_updateHandle _) ?_
  intro _
  exact Moves.pure _

theorem moves_guardedCycle : Moves relation (guardedCycle (ε := ε)) := by
  refine Moves.catching ?_ ?_
  · refine Moves.bind moves_cycle ?_
    intro _
    exact Moves.pure _
  · intro fault
    refine Moves.bind (Moves.modify fun master => AllowsCounters.errorCount master _) ?_
    intro _
    exact moves_report _ _

theorem moves_loopFrom (cycles : Nat) (tick : Binary64) :
    Moves relation (loopFrom (ε := ε) cycles tick) := by
  induction cycles generalizing tick with
  | zero => exact Moves.pure _
  | succ cycles ih =>
      refine Moves.bind moves_guardedCycle ?_
      intro _
      refine Moves.bind Moves.get ?_
      intro master
      refine Moves.bind (Moves.ofAccident _) ?_
      intro cycleTime
      refine Moves.bind Moves.get ?_
      intro later
      dsimp only
      split
      · refine Moves.bind (AllowsEngine.tells (.wait _)) ?_
        intro _
        refine Moves.bind (ih _) ?_
        intro more
        exact Moves.pure _
      · exact ih _

theorem moves_loop (cycles : Nat) : Moves relation (loop (ε := ε) cycles) := by
  refine Moves.bind Moves.get ?_
  intro master
  exact moves_loopFrom _ _

end Cycles

end Master

end Fieldbus
