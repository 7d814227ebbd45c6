import Fieldbus.Segment.Basic
import Fieldbus.Stack.Basic

/-!
# A simulated segment as a frame stack
-/

namespace Fieldbus

namespace Segment

/-- Fail if an error is set up. -/
def failIf : Option StackError → Action Segment Unit
  | some error => throw (.stack error)
  | none => pure ()

def stackSlave (segment : Segment) (place : Nat) : SimulatedSlave :=
  segment.slaves[place]?.getD SimulatedSlave.plain

/-- What the stack shows of a simulated slave. -/
def shownSlave (slave : SimulatedSlave) : StackSlave where
  name := slave.name
  vendor := slave.vendor
  product := slave.product
  revision := slave.revision
  state := slave.state
  alStatus := slave.alStatus
  output := Bytes.zeros slave.outputBytes
  input := slave.inputData

/-- The working counter of the next state request. -/
def nextStateWkc (segment : Segment) : Int × Segment :=
  let (wkc, rest) := segment.stateWkc.next
  (wkc.getD 1, { segment with stateWkc := rest })

/-- Request a state: `take` changes the states if any slave answered. -/
def request (take : Segment → Segment) : Action Segment Int := do
  let wkc ← modifyGet nextStateWkc
  if 0 < wkc then modify take
  return wkc

/-- The objects of a simulated slave as the stack lists them. -/
def shownObjects (slave : SimulatedSlave) : List StackObject :=
  slave.objects.zipIdx.map fun (object, item) =>
    { item
      index := object.index
      typeCode := object.typeCode
      objectCode := object.objectCode
      name := object.name
      bitLength := object.bitLength
      access := object.access
      entries := object.entries }

/-- The error of an upload that finds no object. -/
def missingObject : StackError where
  kind := .sdo
  text := ""
  abort := some 0x06020000
  details := some "The object does not exist"

/-- The next answer to an upload.  An upload whose time is out of range takes none. -/
def stackUpload (place : Nat) (entry : EntryIndex) (complete : Bool) :
    Action Segment Bytes := do
  passUpload
  let (item, after) := ((← get).stackSlave place).answer entry complete
  modify fun segment => segment.setSlave place after
  match item with
  | .data content => return content
  | .missing => throw (.stack missingObject)
  | .error error => throw (.stack error)

def stackDownload (place : Nat) (entry : EntryIndex) (data : Bytes) :
    Action Segment Unit := do
  let slave := (← get).stackSlave place
  match slave.writeErrors.get? entry with
  | some error => throw (.stack error)
  | none => modify (·.setSlave place (slave.store entry data))

end Segment

instance : Stack Segment where
  adapters segment := segment.adapters
  bind _ := do Segment.failIf (← get).openError
  release segment := segment
  enumerate := do
    let segment ← get
    return segment.enumerated.getD segment.slaves.length
  mapImage := do
    let segment ← get
    Segment.failIf segment.mapError
    let sizes := segment.slaves.map fun slave => slave.outputBytes + slave.inputBytes
    return (ImageRange.total sizes : Nat)
  configureClocks := return (← get).hasClocks
  slaves segment := segment.slaves.map Segment.shownSlave
  writeState state := Segment.request (·.takeState state)
  writeSlaveState place state :=
    Segment.request fun segment => segment.setSlave place ((segment.stackSlave place).take state)
  checkState := Segment.awaitState
  readState := return (← get).lowestState?.getD 0
  objects place := do
    let slave := (← get).stackSlave place
    Segment.failIf slave.listError
    return Segment.shownObjects slave
  entries place object := do
    let slave := (← get).stackSlave place
    Segment.failIf ((slave.entriesError.filter (·.1 = (object.item : Int))).map Prod.snd)
    return object.entries
  upload place entry _ complete _ := Segment.stackUpload place entry complete
  download place entry data _ _ := Segment.stackDownload place entry data
  setOutput segment place data :=
    segment.setSlave place { segment.stackSlave place with sent := data }
  send segment := segment
  receive _ := do
    Segment.passExchange
    return (← modifyGet Segment.nextWkc).getD (-1)
  expectedWkc segment := segment.expectedWkc
  now segment := segment.clock
  wait := Segment.pass
  taskStarted segment := segment
  taskJoined segment := segment

end Fieldbus
