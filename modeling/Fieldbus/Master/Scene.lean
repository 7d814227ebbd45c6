import Fieldbus.Master.Operation

/-!
# The task beside its master

The process-data task runs beside whoever operates the master, and calls the observers of the
handles in its cycles.  An observer may queue writes, take its time, fail, or try to close the
master.  Whoever ends the task waits for it, but not for ever: the task may run more cycles until
it is told to end and one after that, and a cycle that takes too long outlives the wait.  What is
left of it then counts as done before the wait is over.

A scene is a master with a mark of such a task.  The operations that end the task are carried out
here beside a company: all that observers do meanwhile.  Without company they are those of the
master.
-/

namespace Fieldbus

/-- Something that an observer does. -/
inductive Act where
  | queue (place : Nat) (entry : EntryIndex) (value : Value)
  /-- Keep the cycle waiting for some seconds. -/
  | block (seconds : Binary64)
  | fail (fault : Fault)
  /-- Try to close the master. -/
  | close
  deriving Repr

/-- What observers do, and what the task has still to do when it is ended. -/
structure Company where
  /-- The acts of the observer of the handle at a place in a cycle. -/
  acts : (turn place : Nat) → List Act
  /-- How many cycles the task runs until it is told to end. -/
  early : Nat
  /-- Whether it runs another one then. -/
  late : Bool

/-- Nobody acts, and the task waits for its next cycle when it is told to end. -/
def Company.absent : Company where
  acts _ _ := []
  early := 0
  late := false

namespace Master

variable {ε : Type} [Engine ε]

/-- Close the master from a cycle.  The handles are stopped, but the task cannot wait for its own
end. -/
def closeFromTask : Action (Master ε) Unit := do
  stopHandles (registeredPlaces (← get))
  modify fun master => { master with inOp := false }
  throw (.stack ⟨.runtime, "cannot join current thread", none, none⟩)

def perform : Act → Action (Master ε) Unit
  | .queue place entry value => queue place entry value
  | .block seconds => changeEngine (Engine.wait · seconds)
  | .fail fault => throw fault
  | .close => closeFromTask

def performActs : List Act → Action (Master ε) Unit
  | [] => pure ()
  | act :: rest => do
      perform act
      performActs rest

/-- Update a handle and let its observer act. -/
def attendTo (company : Company) (turn place : Nat) : Action (Master ε) Unit := do
  updateHandle place
  performActs (company.acts turn place)

/-- Run a cycle in company; if it fails, count and report that. -/
def cycleAmid (company : Company) (turn : Nat) : Action (Master ε) Unit :=
  Action.catching (fun _ => true)
    (do
      let _ ← exchange
      forPlaces (attendTo company turn) (registeredPlaces (← get)))
    fun _ => do
      modify fun master => { master with errorCount := master.errorCount + 1 }
      report .error "Process data cycle failed"

/-- Run so many cycles in company. -/
def cyclesAmid (company : Company) : (count turn : Nat) → Action (Master ε) Unit
  | 0, _ => pure ()
  | count + 1, turn => do
      cycleAmid company turn
      cyclesAmid company count (turn + 1)

end Master

/-- A master, and whether a task was still in a cycle when the wait for its end was over. -/
structure Scene (ε : Type) where
  master : Master ε
  outlived : Bool

namespace Scene

open Master

variable {ε α : Type}

/-- Whether a process-data task may be alive. -/
def isAlive (scene : Scene ε) : Bool :=
  scene.master.running || scene.outlived

def masterPart : Part (Scene ε) (Master ε) where
  get scene := scene.master
  set scene master := { scene with master }

/-- Let the master of a scene act. -/
def inMaster (action : Action (Master ε) α) : Action (Scene ε) α :=
  Action.within masterPart action

/-- How long the end of the task is waited for, in seconds. -/
def joinTimeout : Binary64 := Binary64.ofNat 2

variable [Engine ε]

/-- End the task, if it runs, and wait for it no longer than the timeout. -/
def stop (company : Company) : Action (Scene ε) Unit := do
  if (← get).master.running then
    inMaster (cyclesAmid company company.early 0)
    if company.late then
      let told := Engine.now (← get).master.engine
      inMaster (cycleAmid company company.early)
      let ended := Engine.now (← get).master.engine
      modify fun scene =>
        { scene with outlived := scene.outlived || joinTimeout.lt (ended.sub told) }
    inMaster Master.stop

/-- Run a configuration pass. -/
def configure (company : Company) : Action (Scene ε) Unit := do
  stop company
  inMaster Master.configure

/-- Bring the slaves to the operational state. -/
def goOperational (company : Company) (timeout : Number) : Action (Scene ε) Unit := do
  let isReached ← inMaster do
    reach .safeOp
    report .info "Reached SAFE-OP state"
    forPlaces applyPending (registeredPlaces (← get))
    start
    requestStates AlState.op.code
    let timeout ← Action.ofAccident (seconds timeout)
    let deadline := (Engine.now (← get).engine).add timeout
    pollOperational pollLimit deadline
  if isReached then
    inMaster do
      modify fun master => { master with inOp := true }
      report .info "Reached OP state, bus ready"
  else
    stop company
    inMaster do throw (.connection (.operationalNotReached (← stateReport)))

/-- Stop all handles and the task, then unbind the engine. -/
def close (company : Company) : Action (Scene ε) Unit := do
  inMaster do stopHandles (registeredPlaces (← get))
  let wasRunning := (← get).master.running
  inMaster (modify fun master => { master with inOp := false })
  stop company
  inMaster do
    let master ← get
    if master.opened then
      Action.ensuring
        (if wasRunning && !(registeredPlaces master).isEmpty then finalExchange else pure ())
        disconnect
      report .info "Disconnected"

end Scene

end Fieldbus
