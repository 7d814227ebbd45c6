import Fieldbus.Proofs.Master.Operation

/-!
# Reachable masters

What a caller can do with a master, and the masters that come about in this way.  Every
command may fail; what it changed before stays changed, and the next command finds it so.
-/

namespace Fieldbus

namespace Master

open Fieldbus.Action

inductive Command where
  | openBus (operational : Bool)
  | configure
  | goOperational (timeout : Number)
  | close
  | start
  | stop
  | loop (cycles : Nat)
  | cycle
  | exchange
  | setValue (slave : Int) (entry : EntryIndex) (value : Value)
  | checkValue (slave : Int) (entry : EntryIndex) (value : Value)
  | values (slave : Int)
  | zeroOutputs (slave : Int)
  | register (slave : Int) (observes : Bool)
  | unregister (place : Nat)
  | queue (place : Nat) (entry : EntryIndex) (value : Value)
  | requestStates (state : Int)
  | checkStates (state : Int)
  | states
  | slaves
  | stateReport
  | validateSizes (slave : Int)
  | upload (slave : Int) (entry : EntryIndex) (complete : Bool) (size : Int)
      (timeout : Option Number)
  | download (slave : Int) (entry : EntryIndex) (data : Bytes) (complete : Bool)
      (timeout : Option Number)
  | readAddress (slave : Int) (address : EntryAddress) (timeout : Option Number)
  | readComplete (slave index : Int) (includeFirst : Bool) (timeout : Option Number)
  | writeEntry (slave : Int) (entry : EntryIndex) (value : Value) (timeout : Option Number)

variable {ε : Type} [Engine ε]

/-- Carry out a command and drop its result. -/
def Command.perform : Command → Action (Master ε) Unit
  | openBus operational => Master.openBus operational
  | configure => Master.configure
  | goOperational timeout => Master.goOperational timeout
  | close => Master.close
  | start => Master.start
  | stop => Master.stop
  | loop cycles => do let _ ← Master.loop cycles
  | cycle => do let _ ← Master.cycle
  | exchange => do let _ ← Master.exchange
  | setValue slave entry value => Master.setValue slave entry value
  | checkValue slave entry value => Master.checkValue slave entry value
  | values slave => do let _ ← Master.values slave
  | zeroOutputs slave => Master.zeroOutputs slave
  | register slave observes => do let _ ← Master.register slave observes
  | unregister place => Master.unregister place
  | queue place entry value => Master.queue place entry value
  | requestStates state => Master.requestStates state
  | checkStates state => Master.checkStates state
  | states => do let _ ← Master.states
  | slaves => do let _ ← Master.slaves
  | stateReport => do let _ ← Master.stateReport
  | validateSizes slave => do let _ ← Master.validateSizes slave
  | upload slave entry complete size timeout => do
      let _ ← Master.upload slave entry complete size timeout
  | download slave entry data complete timeout =>
      Master.download slave entry data complete timeout
  | readAddress slave address timeout => do
      let _ ← Master.readAddress slave address timeout
  | readComplete slave index includeFirst timeout => do
      let _ ← Master.readComplete slave index includeFirst timeout
  | writeEntry slave entry value timeout => Master.writeEntry slave entry value timeout

/-- The masters that commands lead to, from masters that have not been opened. -/
inductive Reachable : Master ε → Prop where
  | idle (config : BusConfig) (pdoConfig : Option PdoConfig) (engine : ε) :
      Reachable (Master.idle config pdoConfig engine)
  | step {master : Master ε} (reachable : Reachable master) (command : Command) :
      Reachable (final (command.perform master))

/-- A property holds of all reachable masters if it holds initially and every command
preserves it. -/
theorem Reachable.invariant {property : Master ε → Prop} {master : Master ε}
    (reachable : Reachable master)
    (initially : ∀ config pdoConfig engine, property (Master.idle config pdoConfig engine))
    (preserved : ∀ command : Command, Moves (Preserve property) (command.perform (ε := ε))) :
    property master := by
  induction reachable with
  | idle config pdoConfig engine => exact initially config pdoConfig engine
  | step reachable command ih => exact preserved command _ ih

def Command.performAll : List Command → Master ε → Master ε
  | [], master => master
  | command :: rest, master => performAll rest (final (command.perform master))

theorem Reachable.performAll {master : Master ε} (reachable : Reachable master)
    (commands : List Command) : Reachable (Command.performAll commands master) := by
  induction commands generalizing master with
  | nil => exact reachable
  | cons command rest ih => exact ih (reachable.step command)

def Command.configures : Command → Bool
  | openBus _ | configure => true
  | _ => false

section Moves

variable {relation : Master ε → Master ε → Prop}

/-- Commands that change neither whether the bus is open nor whether it is operational. -/
def Command.isModest : Command → Bool
  | openBus _ | configure | goOperational _ | close => false
  | _ => true

theorem moves_perform_of_modest [AllowsTask relation] {command : Command}
    (modest : command.isModest = true) : Moves relation (command.perform (ε := ε)) := by
  have dropped {α : Type} {action : Action (Master ε) α} (moves : Moves relation action) :
      Moves relation (do let _ ← action) := by
    refine Moves.bind moves ?_
    intro _
    exact Moves.pure _
  cases command with
  | openBus operational => cases modest
  | configure => cases modest
  | goOperational timeout => cases modest
  | close => cases modest
  | start => exact moves_start
  | stop => exact moves_stop
  | loop cycles => exact dropped (moves_loop cycles)
  | cycle => exact dropped moves_cycle
  | exchange => exact dropped moves_exchange
  | setValue slave entry value => exact moves_setValue slave entry value
  | checkValue slave entry value => exact moves_checkValue slave entry value
  | values slave => exact dropped (moves_values slave)
  | zeroOutputs slave => exact moves_zeroOutputs slave
  | register slave observes => exact dropped (moves_register slave observes)
  | unregister place => exact moves_unregister place
  | queue place entry value => exact moves_queue place entry value
  | requestStates state => exact moves_requestStates state
  | checkStates state => exact moves_checkStates state
  | states => exact dropped moves_states
  | slaves => exact dropped moves_slaves
  | stateReport => exact dropped moves_stateReport
  | validateSizes slave => exact dropped (moves_validateSizes slave)
  | upload slave entry complete size timeout => exact dropped (moves_upload _ _ _ _ _)
  | download slave entry data complete timeout => exact moves_download _ _ _ _ _
  | readAddress slave address timeout => exact dropped (moves_readAddress _ _ _)
  | readComplete slave index includeFirst timeout =>
      exact dropped (moves_readComplete _ _ _ _)
  | writeEntry slave entry value timeout => exact moves_writeEntry _ _ _ _

/-- Commands that neither configure nor close the bus do not bind or unbind the engine. -/
theorem moves_perform_of_plain [AllowsOperation relation] {command : Command}
    (plain : command.configures = false) (stays : command ≠ .close) :
    Moves relation (command.perform (ε := ε)) := by
  cases command with
  | openBus operational => cases plain
  | configure => cases plain
  | goOperational timeout => exact moves_goOperational timeout
  | close => exact absurd rfl stays
  | _ => exact moves_perform_of_modest rfl

variable [AllowsStates relation]

theorem moves_perform_of_not_configures {command : Command}
    (plain : command.configures = false) : Moves relation (command.perform (ε := ε)) := by
  by_cases closes : command = .close
  · rw [closes]
    exact moves_close
  · exact moves_perform_of_plain plain closes

theorem performAll_of_not_configures {commands : List Command}
    (plain : ∀ command ∈ commands, command.configures = false) (master : Master ε) :
    relation master (Command.performAll commands master) := by
  induction commands generalizing master with
  | nil => exact refl master
  | cons command rest ih =>
      have first : relation master (final (command.perform master)) :=
        moves_perform_of_not_configures (plain command List.mem_cons_self) master
      have more := ih (fun other member => plain other (List.mem_cons_of_mem _ member))
      exact IsTrans.trans _ _ _ first (more _)

theorem moves_perform (configures : Moves relation (Master.configure (ε := ε)))
    (command : Command) : Moves relation (command.perform (ε := ε)) := by
  cases command with
  | openBus operational => exact moves_openBus configures operational
  | configure => exact configures
  | _ => exact moves_perform_of_not_configures rfl

end Moves

end Master

end Fieldbus
