import Fieldbus.Engine.Basic

/-!
# Recorded calls

An engine that records what it is asked before it carries it out.  Only requests
that go out to the bus and the events of the process-data task are recorded, not
questions about what is known already.
-/

namespace Fieldbus

/-- Something together with a record of the calls made to it, in order. -/
structure Recorded (σ κ : Type) where
  inner : σ
  calls : Array κ
  deriving Inhabited

namespace Recorded

variable {φ σ κ α : Type}

def part : Part (Recorded σ κ) σ where
  get recorded := recorded.inner
  set recorded inner := { recorded with inner }

def note (recorded : Recorded σ κ) (call : κ) : Recorded σ κ :=
  { recorded with calls := recorded.calls.push call }

/-- Carry out an action without a record. -/
def quietly (action : EStateM φ σ α) : EStateM φ (Recorded σ κ) α :=
  Action.within part action

/-- Record a call and carry it out. -/
def noting (call : κ) (action : EStateM φ σ α) : EStateM φ (Recorded σ κ) α := fun recorded =>
  quietly action (recorded.note call)

end Recorded

inductive EngineCall where
  | connect (adapter : Payload)
  | disconnect
  | enumerate
  | mapImage
  | configureClocks
  | requestState (state : Int)
  | checkState (state : Int) (timeout : Number)
  | readState
  | upload (slave : Int) (entry : EntryIndex) (complete : Bool) (size : Int) (timeout : Number)
  | download (slave : Int) (entry : EntryIndex) (complete : Bool) (data : Bytes)
      (timeout : Number)
  | objectList (slave : Int)
  | objectDescription (slave item : Int)
  | entryList (slave item : Int)
  | exchange (timeout : Number)
  | taskStarted
  | taskJoined
  deriving Repr, Inhabited

open Recorded in
instance {ε : Type} [Engine ε] : Engine (Recorded ε EngineCall) where
  connect adapter := noting (.connect adapter) (Engine.connect adapter)
  disconnect := noting .disconnect Engine.disconnect
  enumerate := noting .enumerate Engine.enumerate
  mapImage := noting .mapImage Engine.mapImage
  configureClocks := noting .configureClocks Engine.configureClocks
  slaveCount recorded := Engine.slaveCount recorded.inner
  slaveInfo slave := quietly (Engine.slaveInfo slave)
  requestState state := noting (.requestState state) (Engine.requestState state)
  checkState state timeout :=
    noting (.checkState state timeout) (Engine.checkState state timeout)
  readState := noting .readState Engine.readState
  slaveState slave := quietly (Engine.slaveState slave)
  upload slave entry complete size timeout :=
    noting (.upload slave entry complete size timeout)
      (Engine.upload slave entry complete size timeout)
  download slave entry complete data timeout :=
    noting (.download slave entry complete data timeout)
      (Engine.download slave entry complete data timeout)
  objectList slave := noting (.objectList slave) (Engine.objectList slave)
  objectDescription slave item :=
    noting (.objectDescription slave item) (Engine.objectDescription slave item)
  entryList slave item := noting (.entryList slave item) (Engine.entryList slave item)
  expectedWkc := quietly Engine.expectedWkc
  outputRange slave := quietly (Engine.outputRange slave)
  inputRange slave := quietly (Engine.inputRange slave)
  exchange timeout := noting (.exchange timeout) (Engine.exchange timeout)
  image recorded := Engine.image recorded.inner
  setImage recorded image := { recorded with inner := Engine.setImage recorded.inner image }
  now recorded := Engine.now recorded.inner
  wait recorded seconds := { recorded with inner := Engine.wait recorded.inner seconds }
  taskStarted recorded :=
    { recorded.note .taskStarted with inner := Engine.taskStarted recorded.inner }
  taskJoined recorded :=
    { recorded.note .taskJoined with inner := Engine.taskJoined recorded.inner }

end Fieldbus
