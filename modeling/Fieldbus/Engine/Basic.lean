import Fieldbus.Action
import Fieldbus.Engine.Image
import Fieldbus.Payload
import Fieldbus.Text.Name

/-!
# Engines

An engine carries out what a master asks of a bus: it binds an adapter, finds and
maps the slaves, moves their states, serves their mailboxes and exchanges the
process image.  It also tells the time and is told when the process-data task
starts and ends.  All positions count from zero and all timeouts are in seconds.
-/

namespace Fieldbus

/-- What an engine knows of a slave. -/
structure SlaveInfo where
  position : Int
  name : ReportedName
  vendorId : Int
  productCode : Int
  revision : Int
  state : Int
  alStatus : Int
  outputBytes : Nat
  inputBytes : Nat
  deriving DecidableEq, Repr, Inhabited

/-- The answer to a request for an object description.  Without `maxSubindex` the
entry list tells the number of entries. -/
structure ObjectDescription where
  index : Int
  typeCode : Int
  objectCode : Int
  maxSubindex : Option Int
  name : ReportedName
  deriving DecidableEq, Repr, Inhabited

/-- The answer to a request for an entry description. -/
structure EntryDescription where
  typeCode : Int
  bitLength : Int
  access : Int
  name : ReportedName
  deriving DecidableEq, Repr, Inhabited

class Engine (ε : Type) where
  /-- Bind an adapter; none stands for the first one. -/
  connect : Payload → Action ε Unit
  disconnect : Action ε Unit
  /-- Find the slaves; the result is their number. -/
  enumerate : Action ε Int
  /-- Lay out the process image; the result is its size. -/
  mapImage : Action ε Int
  configureClocks : Action ε Unit
  slaveCount : ε → Nat
  slaveInfo : (slave : Int) → Action ε SlaveInfo
  /-- Ask all slaves to take a state. -/
  requestState : (state : Int) → Action ε Unit
  /-- Wait for all slaves to take a state; the result is the state they have. -/
  checkState : (state : Int) → (timeout : Number) → Action ε Int
  /-- Refresh the states of the slaves; the result is the lowest. -/
  readState : Action ε Int
  /-- The state and the status of a slave. -/
  slaveState : (slave : Int) → Action ε (Int × Int)
  /-- Read an entry of a slave, or a whole object with complete access. -/
  upload : (slave : Int) → (entry : EntryIndex) → (complete : Bool) → (size : Int) →
    (timeout : Number) → Action ε Bytes
  /-- Write an entry of a slave. -/
  download : (slave : Int) → (entry : EntryIndex) → (complete : Bool) → (data : Bytes) →
    (timeout : Number) → Action ε Unit
  /-- The indices of a slave's objects. -/
  objectList : (slave : Int) → Action ε (List Int)
  objectDescription : (slave item : Int) → Action ε ObjectDescription
  entryList : (slave item : Int) → Action ε (List EntryDescription)
  /-- The working counter of an exchange in which all slaves take part. -/
  expectedWkc : Action ε Int
  outputRange : (slave : Int) → Action ε ImageRange
  inputRange : (slave : Int) → Action ε ImageRange
  /-- Send the outputs and take in the inputs; the result is the working counter. -/
  exchange : (timeout : Number) → Action ε Int
  image : ε → Bytes
  setImage : ε → Bytes → ε
  now : ε → Binary64
  /-- Let some seconds pass. -/
  wait : ε → Binary64 → ε
  /-- The process-data task starts. -/
  taskStarted : ε → ε
  /-- The process-data task has ended. -/
  taskJoined : ε → ε

/-- What an engine knows of the slaves from a position on. -/
def Engine.slavesFrom {ε : Type} [Engine ε] :
    (count position : Nat) → Action ε (List SlaveInfo)
  | 0, _ => pure []
  | count + 1, position => do
      let info ← Engine.slaveInfo position
      let more ← slavesFrom count (position + 1)
      return info :: more

end Fieldbus
