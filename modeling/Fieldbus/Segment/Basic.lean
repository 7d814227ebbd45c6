import Fieldbus.Engine.Basic
import Fieldbus.Table

/-!
# Simulated segments

A segment of slaves that exists in memory.  Its answers are set up beforehand:
tables of mailbox data, scripts of working counters and states, and errors.  Its
clock moves only when something is said to take time.
-/

namespace Fieldbus

/-- Answers that are used one after the other; the last one stays for ever. -/
abbrev Script (α : Type) := List α

namespace Script

variable {α : Type}

/-- The next answer, if there is any, and the remaining script. -/
def next : Script α → Option α × Script α
  | [] => (none, [])
  | [answer] => (some answer, [answer])
  | answer :: rest => (some answer, rest)

end Script

inductive MailboxItem where
  | data (content : Bytes)
  | missing
  | error (error : StackError)
  deriving DecidableEq, Repr, Inhabited

structure SimulatedObject where
  index : Int
  typeCode : Int
  objectCode : Int
  maxSubindex : Option Int
  name : ReportedName
  entries : List EntryDescription
  bitLength : Int
  access : Int
  deriving DecidableEq, Repr, Inhabited

structure SimulatedSlave where
  name : ReportedName
  vendor : Int
  product : Int
  revision : Int
  state : Int
  alStatus : Int
  outputBytes : Nat
  inputBytes : Nat
  /-- The input data, if they are not zeros. -/
  inputs : Option Bytes
  /-- The states that the slave does not take. -/
  refused : List Int
  objects : List SimulatedObject
  mailbox : Table EntryIndex (Script MailboxItem)
  /-- The uploads with complete access that have answers of their own. -/
  complete : Table Int (Script MailboxItem)
  writeErrors : Table EntryIndex StackError
  listError : Option StackError
  /-- The place of a failing object description. -/
  descriptionError : Option (Int × StackError)
  /-- The place of a failing entry list. -/
  entriesError : Option (Int × StackError)
  /-- The outputs that the slave got last. -/
  sent : Bytes
  deriving Repr, Inhabited

namespace SimulatedSlave

/-- A slave of which nothing is said. -/
def plain : SimulatedSlave where
  name := .text "Slave"
  vendor := 2
  product := 0x1234
  revision := 1
  state := 1
  alStatus := 0
  outputBytes := 0
  inputBytes := 0
  inputs := none
  refused := []
  objects := []
  mailbox := []
  complete := []
  writeErrors := []
  listError := none
  descriptionError := none
  entriesError := none
  sent := []

def inputData (slave : SimulatedSlave) : Bytes :=
  slave.inputs.getD (Bytes.zeros slave.inputBytes)

def take (slave : SimulatedSlave) (state : Int) : SimulatedSlave :=
  if slave.refused.contains state then slave else { slave with state }

/-- The next answer to an upload of one entry. -/
def nextItem (slave : SimulatedSlave) (entry : EntryIndex) : MailboxItem × SimulatedSlave :=
  match (slave.mailbox.get? entry).map Script.next with
  | some (some item, rest) => (item, { slave with mailbox := slave.mailbox.put entry rest })
  | _ => (.missing, slave)

/-- The subindices of an object in the mailbox table, in ascending order. -/
def subindices (slave : SimulatedSlave) (index : Int) : List Int :=
  ((slave.mailbox.filter (·.1.index = index)).map (·.1.subindex)).mergeSort (· ≤ ·)

/-- The data of the next answers at some subindices; other answers are left out. -/
def nextData (index : Int) : List Int → SimulatedSlave → List Bytes × SimulatedSlave
  | [], slave => ([], slave)
  | subindex :: rest, slave =>
      let (item, slave) := slave.nextItem ⟨index, subindex⟩
      let (more, slave) := nextData index rest slave
      match item with
      | .data content => (content :: more, slave)
      | _ => (more, slave)

/-- The next answer to an upload of an object with complete access.  Without an
answer of its own it is made of the data of its entries, if any has data. -/
def nextComplete (slave : SimulatedSlave) (index : Int) : MailboxItem × SimulatedSlave :=
  match (slave.complete.get? index).map Script.next with
  | some (some item, rest) => (item, { slave with complete := slave.complete.put index rest })
  | some (none, _) => (.missing, slave)
  | none =>
      let (parts, slave) := nextData index (slave.subindices index) slave
      (if parts.isEmpty then .missing else .data parts.flatten, slave)

def answer (slave : SimulatedSlave) (entry : EntryIndex) (complete : Bool) :
    MailboxItem × SimulatedSlave :=
  if complete then slave.nextComplete entry.index else slave.nextItem entry

/-- Store data as the only answer of an entry. -/
def store (slave : SimulatedSlave) (entry : EntryIndex) (data : Bytes) : SimulatedSlave :=
  { slave with mailbox := slave.mailbox.put entry [.data data] }

end SimulatedSlave

structure Segment where
  slaves : List SimulatedSlave
  /-- The working counters of exchanges, `none` for a lost frame.  Without a script
  every exchange is complete. -/
  wkc : Option (Script (Option Int))
  expectedWkc : Int
  /-- The states that waiting for a state finds. -/
  foundStates : Option (Script Int)
  /-- The working counters of state requests. -/
  stateWkc : Script Int
  /-- How many microseconds uploads and exchanges take. -/
  uploadMicros : Script Number
  exchangeMicros : Script Number
  openError : Option StackError
  mapError : Option StackError
  /-- The number of slaves that enumeration reports, if it is not the true one. -/
  enumerated : Option Int
  hasClocks : Bool
  adapters : List (ReportedName × ReportedName)
  clock : Binary64
  deriving Repr, Inhabited

namespace Segment

def bare : Segment where
  slaves := []
  wkc := none
  expectedWkc := 3
  foundStates := none
  stateWkc := [1]
  uploadMicros := [.int 0]
  exchangeMicros := [.int 0]
  openError := none
  mapError := none
  enumerated := none
  hasClocks := false
  adapters := [(.text "eth0", .text "Fake adapter")]
  clock := Binary64.zero

/-- The place of a slave; negative positions count from the end. -/
def place? (segment : Segment) (slave : Int) : Option Nat :=
  let place := if slave < 0 then slave + segment.slaves.length else slave
  if 0 ≤ place ∧ place < segment.slaves.length then some place.toNat else none

def slave? (segment : Segment) (slave : Int) : Option SimulatedSlave :=
  (segment.place? slave).bind (segment.slaves[·]?)

def setSlave (segment : Segment) (place : Nat) (slave : SimulatedSlave) : Segment :=
  { segment with slaves := segment.slaves.set place slave }

def pass (segment : Segment) (seconds : Binary64) : Segment :=
  { segment with clock := segment.clock.add seconds }

/-- The seconds that a number of microseconds are, if they are in range. -/
def secondsOf : Number → Except Accident Binary64
  | .real micros => .ok (micros.div (Binary64.ofNat 1000000))
  | .int micros =>
      let seconds := Binary64.ofQuotient micros 1000000
      if seconds.isFinite then .ok seconds else .error .overflow

/-- Let some microseconds pass. -/
def passMicros (micros : Number) : Action Segment Unit := do
  let seconds ← Action.ofAccident (secondsOf micros)
  modify fun segment => segment.pass seconds

/-- Let pass the time of an upload. -/
def passUpload : Action Segment Unit := do
  let (micros, rest) := (← get).uploadMicros.next
  modify fun segment => { segment with uploadMicros := rest }
  passMicros (micros.getD (.int 0))

/-- Let pass the time of an exchange. -/
def passExchange : Action Segment Unit := do
  let (micros, rest) := (← get).exchangeMicros.next
  modify fun segment => { segment with exchangeMicros := rest }
  passMicros (micros.getD (.int 0))

/-- The working counter of the next exchange, `none` for a lost frame. -/
def nextWkc (segment : Segment) : Option Int × Segment :=
  match segment.wkc.map Script.next with
  | some (some wkc, rest) => (wkc, { segment with wkc := some rest })
  | _ => (some segment.expectedWkc, segment)

def lowestState? (segment : Segment) : Option Int :=
  (segment.slaves.map SimulatedSlave.state).min?

/-- All slaves take a state, but those that refuse it. -/
def takeState (segment : Segment) (state : Int) : Segment :=
  { segment with slaves := segment.slaves.map (·.take state) }

/-- The state that waiting for `state` finds. -/
def findState (segment : Segment) (state : Int) : Int × Segment :=
  match segment.foundStates.map Script.next with
  | some (some found, rest) => (found, { segment with foundStates := some rest })
  | _ => (segment.lowestState?.getD state, segment)

/-- Wait for a state; waiting in vain takes the whole timeout.  A timeout that is out
of range fails before anything is found. -/
def awaitState (state micros : Int) : Action Segment Int := do
  let timeout ← Action.ofAccident (secondsOf (.int micros))
  let found ← modifyGet (·.findState state)
  if found ≠ state then modify fun segment => segment.pass timeout
  return found

end Segment

end Fieldbus
