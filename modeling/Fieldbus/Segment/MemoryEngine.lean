import Fieldbus.Segment.Basic

/-!
# The engine in memory

An engine that works on a simulated segment directly.  It lays out the outputs of
all slaves and then their inputs, in slave order.
-/

namespace Fieldbus

structure MemoryEngine where
  segment : Segment
  image : Bytes
  outputs : List ImageRange
  inputs : List ImageRange
  deriving Repr, Inhabited

namespace MemoryEngine

/-- An engine whose image is not laid out yet. -/
def ofSegment (segment : Segment) : MemoryEngine :=
  { segment, image := [], outputs := [], inputs := [] }

def segmentPart : Part MemoryEngine Segment where
  get engine := engine.segment
  set engine segment := { engine with segment }

def inSegment {α : Type} (action : Action Segment α) : Action MemoryEngine α :=
  Action.within segmentPart action

def change (update : Segment → Segment) : Action MemoryEngine Unit :=
  inSegment (modify update)

/-- The place of a slave and the slave. -/
def slaveAt (slave : Int) : Action MemoryEngine (Nat × SimulatedSlave) := do
  let engine ← get
  match engine.segment.place? slave, engine.segment.slave? slave with
  | some place, some found => return (place, found)
  | _, _ => throw (.accident .position)

def connect : Action MemoryEngine Unit := do
  match (← get).segment.openError with
  | some error => throw (.connection (.engine error.text))
  | none => return

def enumerate : Action MemoryEngine Int := do
  let segment := (← get).segment
  return segment.enumerated.getD segment.slaves.length

def mapImage : Action MemoryEngine Int := do
  let engine ← get
  match engine.segment.mapError with
  | some error => throw (.configuration (.engine error.text))
  | none =>
      let outputLengths := engine.segment.slaves.map SimulatedSlave.outputBytes
      let inputLengths := engine.segment.slaves.map SimulatedSlave.inputBytes
      let size := ImageRange.total outputLengths + ImageRange.total inputLengths
      set { engine with
        image := Bytes.zeros size
        outputs := ImageRange.arrange 0 outputLengths
        inputs := ImageRange.arrange (ImageRange.total outputLengths) inputLengths }
      return size

def slaveInfo (slave : Int) : Action MemoryEngine SlaveInfo := do
  let (_, found) ← slaveAt slave
  return {
    position := slave
    name := found.name
    vendorId := found.vendor
    productCode := found.product
    revision := found.revision
    state := found.state
    alStatus := found.alStatus
    outputBytes := found.outputBytes
    inputBytes := found.inputBytes }

/-- The binary64 number that a number of seconds is. -/
def seconds (timeout : Number) : Except Accident Binary64 :=
  match timeout with
  | .real value => .ok value
  | .int value =>
      match Binary64.ofInt? value with
      | some value => .ok value
      | none => .error .overflow

def checkState (state : Int) (timeout : Number) : Action MemoryEngine Int := do
  let found ← inSegment (modifyGet (·.findState state))
  if found ≠ state then
    let duration ← Action.ofAccident (seconds timeout)
    change (·.pass duration)
  return found

def readState : Action MemoryEngine Int := do
  return (← get).segment.lowestState?.getD 0

def slaveState (slave : Int) : Action MemoryEngine (Int × Int) := do
  let (_, found) ← slaveAt slave
  return (found.state, found.alStatus)

/-- The reason of an upload that finds no object. -/
def missingReason : String := "abort code 0x06020000"

/-- The next answer to an upload.  Only an upload from a slave that exists takes time,
and one whose time is out of range takes no answer. -/
def upload (slave : Int) (entry : EntryIndex) (complete : Bool) : Action MemoryEngine Bytes := do
  let (place, found) ← slaveAt slave
  inSegment Segment.passUpload
  let (item, after) := found.answer entry complete
  change (·.setSlave place after)
  match item with
  | .data content => return content
  | .missing => throw (.sdoRead slave entry missingReason)
  | .error error => throw (.sdoRead slave entry error.text)

def download (slave : Int) (entry : EntryIndex) (data : Bytes) : Action MemoryEngine Unit := do
  let (place, found) ← slaveAt slave
  match found.writeErrors.get? entry with
  | some error => throw (.sdoWrite slave entry error.text)
  | none => change (·.setSlave place (found.store entry data))

def objectList (slave : Int) : Action MemoryEngine (List Int) := do
  let (_, found) ← slaveAt slave
  match found.listError with
  | some error => throw (.objectList slave error.text)
  | none => return found.objects.map SimulatedObject.index

/-- An error that is set up for a place. -/
def errorAt? (item : Int) (error : Option (Int × StackError)) : Option StackError :=
  (error.filter (·.1 = item)).map Prod.snd

/-- The object at a place of a slave's list. -/
def objectAt (slave : SimulatedSlave) (item : Int) : Action MemoryEngine SimulatedObject :=
  match if item < 0 then none else slave.objects[item.toNat]? with
  | some object => return object
  | none => throw (.accident .position)

def objectDescription (slave item : Int) : Action MemoryEngine ObjectDescription := do
  let (_, found) ← slaveAt slave
  match errorAt? item found.descriptionError with
  | some error => throw (.objectDescription slave item [] error.text)
  | none =>
      let object ← objectAt found item
      return {
        index := object.index
        typeCode := object.typeCode
        objectCode := object.objectCode
        maxSubindex := object.maxSubindex
        name := object.name }

def entryList (slave item : Int) : Action MemoryEngine (List EntryDescription) := do
  let (_, found) ← slaveAt slave
  match errorAt? item found.entriesError with
  | some error => throw (.entryList slave item [] error.text)
  | none => return (← objectAt found item).entries

/-- Hand each slave its range of the image. -/
def sendOutputs (image : Bytes) : List SimulatedSlave → List ImageRange → List SimulatedSlave
  | slave :: slaves, range :: ranges =>
      { slave with sent := range.read image } :: sendOutputs image slaves ranges
  | slaves, _ => slaves

def exchange : Action MemoryEngine Int := do
  inSegment Segment.passExchange
  match ← inSegment (modifyGet Segment.nextWkc) with
  | none => throw (.communication .noFrame)
  | some wkc =>
      modify fun engine =>
        let slaves := sendOutputs engine.image engine.segment.slaves engine.outputs
        { engine with
          segment := { engine.segment with slaves }
          image := ImageRange.copyIn (slaves.map (·.inputData)) engine.inputs engine.image }
      return wkc

end MemoryEngine

instance : Engine MemoryEngine where
  connect _ := MemoryEngine.connect
  disconnect := pure ()
  enumerate := MemoryEngine.enumerate
  mapImage := MemoryEngine.mapImage
  configureClocks := pure ()
  slaveCount engine := engine.segment.slaves.length
  slaveInfo := MemoryEngine.slaveInfo
  requestState state := MemoryEngine.change (·.takeState state)
  checkState := MemoryEngine.checkState
  readState := MemoryEngine.readState
  slaveState := MemoryEngine.slaveState
  upload slave entry complete _ _ := MemoryEngine.upload slave entry complete
  download slave entry _ data _ := MemoryEngine.download slave entry data
  objectList := MemoryEngine.objectList
  objectDescription := MemoryEngine.objectDescription
  entryList := MemoryEngine.entryList
  expectedWkc := return (← get).segment.expectedWkc
  outputRange slave := do Action.ofExcept (ImageRange.ofSlave (← get).outputs slave)
  inputRange slave := do Action.ofExcept (ImageRange.ofSlave (← get).inputs slave)
  exchange _ := MemoryEngine.exchange
  image engine := engine.image
  setImage engine image := { engine with image }
  now engine := engine.segment.clock
  wait engine seconds := { engine with segment := engine.segment.pass seconds }
  taskStarted engine := engine
  taskJoined engine := engine

end Fieldbus
