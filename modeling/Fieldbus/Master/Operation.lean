import Fieldbus.Master.Configuration

/-!
# Opening and closing

A master is opened with a configuration pass and, if asked for, brought to the
operational state.  Closing clears the outputs of all handles, ends the process-data
task and unbinds the engine.

A task that is told to end here has ended, and nothing else happens meanwhile.  A task that
runs on until it is told so, or outlives the wait for its end, is one of a scene.
-/

namespace Fieldbus

namespace Master

variable {ε α : Type} [Engine ε]

/-- How long the operational state may take, in seconds. -/
def operationalTimeout : Number := .real (Binary64.ofNat 5)

/-- How long one poll for the operational state waits, in seconds. -/
def pollTimeout : Number := .real ⟨0x3fa999999999999a⟩

/-- A number of seconds as a binary64 number. -/
def seconds : Number → Except Accident Binary64
  | .real value => .ok value
  | .int value =>
      match Binary64.ofInt? value with
      | some value => .ok value
      | none => .error .overflow

/-- A bound on the polls for the operational state, far beyond what anyone waits for.
Waiting ends with the deadline or with the state. -/
def pollLimit : Nat :=
  Nat.pow 2 64

/-- Poll for the operational state until a deadline. -/
def pollOperational : (polls : Nat) → (deadline : Binary64) → Action (Master ε) Bool
  | 0, _ => pure false
  | polls + 1, deadline => do
      if (Engine.now (← get).engine).lt deadline then
        let found ← ask (Engine.checkState AlState.op.code pollTimeout)
        if found = AlState.op.code then return true
        else pollOperational polls deadline
      else return false

/-- Bring the slaves to the operational state: the outputs are seeded from the queues
of the handles and the process-data task is started in the safe-operational state. -/
def goOperational (timeout : Number) : Action (Master ε) Unit := do
  reach .safeOp
  report .info "Reached SAFE-OP state"
  forPlaces applyPending (registeredPlaces (← get))
  start
  requestStates AlState.op.code
  let timeout ← Action.ofAccident (seconds timeout)
  let deadline := (Engine.now (← get).engine).add timeout
  if ← pollOperational pollLimit deadline then
    modify fun master => { master with inOp := true }
    report .info "Reached OP state, bus ready"
  else
    stop
    throw (.connection (.operationalNotReached (← stateReport)))

/-- Stop the handles at some places; a fault of the library does not keep the others
from being stopped. -/
def stopHandles : List Nat → Action (Master ε) Unit
  | [] => pure ()
  | place :: rest => do
      Action.catching Fault.isLibrary (stopHandle place) fun fault => do
        report .warning
          (s!"Slave {(← handle place).slave}: safe stop failed: " ++ fault.message)
      stopHandles rest

def finalExchange : Action (Master ε) Unit :=
  Action.catching Fault.isLibrary (do let _ ← exchange) fun fault =>
    report .warning ("Final process data exchange failed: " ++ fault.message)

def disconnect : Action (Master ε) Unit := do
  ask Engine.disconnect
  modify fun master => { master with opened := false }

/-- Stop all handles and the process-data task, then unbind the engine.  If the task
ran, the cleared outputs are sent once more. -/
def close : Action (Master ε) Unit := do
  stopHandles (registeredPlaces (← get))
  let wasRunning := (← get).running
  modify fun master => { master with inOp := false }
  stop
  let master ← get
  if master.opened then
    Action.ensuring
      (if wasRunning && !(registeredPlaces master).isEmpty then finalExchange else pure ())
      disconnect
    report .info "Disconnected"

/-- Bind the adapter and run a configuration pass; if asked for, go to the operational
state.  A fault of the library after the adapter was bound closes the master. -/
def openBus (operational : Bool) : Action (Master ε) Unit := do
  let adapter := (← get).config.adapter
  ask (Engine.connect adapter)
  modify fun master => { master with opened := true }
  Action.catching Fault.isLibrary
    (do
      configure
      if operational then goOperational operationalTimeout)
    (fun fault => do
      close
      throw fault)

/-- Open the bus for the time of an action, and close it afterwards. -/
def withOpen (action : Action (Master ε) α) : Action (Master ε) α := do
  openBus true
  Action.ensuring action close

/-- What an engine knows of the slaves on an adapter, without configuring them. -/
def discover (adapter : Payload) : Action ε (List SlaveInfo) := do
  Engine.connect adapter
  Action.ensuring
    (do
      let count ← Engine.enumerate
      Engine.slavesFrom count.toNat 0)
    Engine.disconnect

end Master

end Fieldbus
