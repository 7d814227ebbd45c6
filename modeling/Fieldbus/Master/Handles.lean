import Fieldbus.Master.Image

/-!
# Handles

Handles take part in the process-data cycle.  A queued write is checked when it is
queued, if the map of the slave is known, and applied by the next cycle.
-/

namespace Fieldbus

namespace Master

variable {ε : Type} [Engine ε]

/-- Register a new handle of a slave; the result is its place among the handles. -/
def register (slave : Int) (observes : Bool) : Action (Master ε) Nat := fun master =>
  let handle : Handle := {
    slave
    registered := true
    values := []
    pending := []
    observed := if observes then some [] else none }
  .ok master.handles.length { master with handles := master.handles ++ [handle] }

def changeHandle (place : Nat) (change : Handle → Handle) : Action (Master ε) Unit :=
  modify fun master => { master with handles := master.handles.modify place change }

/-- Take a handle out of the cycles. -/
def unregister (place : Nat) : Action (Master ε) Unit :=
  changeHandle place fun handle => { handle with registered := false }

def handle (place : Nat) : Action (Master ε) Handle := do
  match (← get).handles[place]? with
  | some handle => return handle
  | none => throw (.accident .key)

def queue (place : Nat) (entry : EntryIndex) (value : Value) : Action (Master ε) Unit := do
  let found ← handle place
  if (← get).maps.has found.slave then checkValue found.slave entry value
  changeHandle place fun handle => { handle with pending := handle.pending ++ [(entry, value)] }

def applyWrites (slave : Int) : List (EntryIndex × Value) → Action (Master ε) Unit
  | [] => pure ()
  | (entry, value) :: rest => do
      setValue slave entry value
      applyWrites slave rest

/-- Empty the queue of a handle and apply its writes. -/
def applyPending (place : Nat) : Action (Master ε) Unit := do
  let found ← handle place
  changeHandle place fun handle => { handle with pending := [] }
  applyWrites found.slave found.pending

/-- The values of a slave by entry; a slave without a map has none. -/
def currentValues (slave : Int) : Action (Master ε) (Table EntryIndex Value) :=
  let isMissing (fault : Fault) : Bool := match fault with
    | .slaveNotFound _ => true
    | _ => false
  Action.catching isMissing (do return Table.ofList (← values slave)) fun _ => pure []

/-- Apply the queue of a handle, refresh its values and let its observer count them. -/
def updateHandle (place : Nat) : Action (Master ε) Unit := do
  applyPending place
  let values ← currentValues (← handle place).slave
  changeHandle place fun handle =>
    { handle with values, observed := handle.observed.map (· ++ [values.length]) }

/-- Drop the queue of a handle and clear the outputs of its slave. -/
def stopHandle (place : Nat) : Action (Master ε) Unit := do
  let found ← handle place
  changeHandle place fun handle => { handle with pending := [] }
  zeroOutputs found.slave

def registeredPlaces (master : Master ε) : List Nat :=
  (List.range master.handles.length).filter fun place =>
    (master.handles[place]?.map Handle.registered).getD false

/-- Carry out an action for the handle at each of some places. -/
def forPlaces (action : Nat → Action (Master ε) Unit) : List Nat → Action (Master ε) Unit
  | [] => pure ()
  | place :: rest => do
      action place
      forPlaces action rest

/-- Run one cycle: an exchange, then an update of every registered handle. -/
def cycle : Action (Master ε) Int := do
  let wkc ← exchange
  forPlaces updateHandle (registeredPlaces (← get))
  return wkc

end Master

end Fieldbus
