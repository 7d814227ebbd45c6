import Fieldbus.Stack.Basic

/-!
# The engine over a frame stack

Turns what a master asks into calls of a frame stack, and the errors of the stack
into faults.  It owns the process image as one byte string.  The outputs of
a slave and its inputs are ranges of it: the outputs of all slaves first, then the
inputs, in slave order.
-/

namespace Fieldbus

structure StackEngine (σ : Type) where
  stack : σ
  /-- Whether there is an open master. -/
  isOpen : Bool
  image : Bytes
  outputs : List ImageRange
  inputs : List ImageRange
  /-- The object lists that were read. -/
  objects : Table Int (List StackObject)
  deriving Inhabited

namespace StackEngine

variable {σ α : Type}

/-- An engine that is not bound yet. -/
def ofStack (stack : σ) : StackEngine σ :=
  { stack, isOpen := false, image := [], outputs := [], inputs := [], objects := [] }

/-- Whether an error is one of the mailbox. -/
def isMailboxError (error : StackError) : Bool :=
  match error.kind with
  | .sdo | .wkc | .mailbox | .packet => true
  | _ => false

/-- Whether an error is one of the dictionary services. -/
def isListError (error : StackError) : Bool :=
  error.kind = .sdoInfo || isMailboxError error

def stackPart : Part (StackEngine σ) σ where
  get engine := engine.stack
  set engine stack := { engine with stack }

def call (action : Action σ α) : Action (StackEngine σ) α :=
  Action.within stackPart action

/-- Let the stack act; an error of it that is caught becomes a fault of its own. -/
def callCatching (caught : StackError → Bool) (fault : StackError → Fault) (action : Action σ α) :
    Action (StackEngine σ) α :=
  let change (found : Fault) : Fault :=
    match found with
    | .stack error => if caught error then fault error else found
    | _ => found
  Action.mapFault change (call action)

def changeStack (change : σ → σ) : Action (StackEngine σ) Unit :=
  call (modify change)

/-- Refuse a request while no master is open. -/
def needOpen : Action (StackEngine σ) Unit := do
  if !(← get).isOpen then throw (.accident .notOpen)

/-- The place of a position in a list; negative positions count from the end. -/
def placeIn (length : Nat) (position : Int) : Except Fault Nat :=
  let place := if position < 0 then position + length else position
  if 0 ≤ place ∧ place < length then .ok place.toNat else .error (.accident .position)

/-- A timeout in whole microseconds, at least one. -/
def micros : Number → Except Accident Int
  | .int seconds => .ok (max 1 (seconds * 1000000))
  | .real seconds =>
      let scaled := seconds.mul (Binary64.ofNat 1000000)
      if scaled.isNaN then .error .value
      else if scaled.isInfinite then .error .overflow
      else .ok (max 1 scaled.truncate)

/-- Remove the blanks at the end of a text. -/
def trimEnd (text : Text) : Text :=
  let isBlank (unit : TextUnit) : Bool :=
    let c := unit.toChar
    Character.isAsciiBlank c || Character.isWideBlank c || (0x1c ≤ c.toNat && c.toNat ≤ 0x1f)
  (text.reverse.dropWhile isBlank).reverse

/-- Why an upload failed: its abort code with its description, or else the text of
the error. -/
def uploadReason (error : StackError) : Text :=
  match error.abort with
  | some code =>
      trimEnd (s!"abort code 0x{Numeral.hex 8 code} " ++ error.details.getD "")
  | none => error.text

variable [Stack σ]

def adapters (stack : σ) : List (Text × Text) :=
  (Stack.adapters stack).map fun pair => (pair.1.toText, pair.2.toText)

/-- The adapter to bind: the first one, or the one with the given name. -/
def choose (available : List (Text × Text)) (adapter : Payload) :
    Except ConnectionFault Text :=
  match available with
  | [] => .error .noAdapters
  | first :: _ =>
      let names := available.map Prod.fst
      match adapter with
      | .none => .ok first.1
      | .text name =>
          if names.contains name then .ok name else .error (.adapterNotFound name names)
      | other => .error (.adapterNotFound other.words names)

def connect (adapter : Payload) : Action (StackEngine σ) Unit := do
  let name ← Action.ofExcept
    ((choose (adapters (← get).stack) adapter).mapError Fault.connection)
  modify fun engine => { engine with isOpen := true }
  match ← Action.attempt (call (Stack.bind name)) with
  | .ok _ => modify fun engine => { engine with objects := [] }
  | .error (.stack error) =>
      if error.kind = .os ∨ error.kind = .runtime then
        modify fun engine => { engine with isOpen := false }
        throw (.connection (.adapterNotOpened name error.text))
      else throw (.stack error)
  | .error fault => throw fault

def disconnect : Action (StackEngine σ) Unit := do
  if (← get).isOpen then changeStack Stack.release
  modify fun engine =>
    { engine with isOpen := false, image := [], outputs := [], inputs := [], objects := [] }

def enumerate : Action (StackEngine σ) Int := do
  needOpen
  let count ← call Stack.enumerate
  if count = -1 then throw (.communication .noFrame)
  if count < -1 then throw (.communication .unknownFrame)
  modify fun engine => { engine with objects := [] }
  return max count 0

def mapImage : Action (StackEngine σ) Int := do
  needOpen
  let size ← callCatching (·.kind = .configMap)
    (fun error => .configuration (.mapGroup error.text)) Stack.mapImage
  modify fun engine =>
    let slaves := Stack.slaves engine.stack
    let outputLengths := slaves.map (·.output.length)
    let inputLengths := slaves.map (·.input.length)
    { engine with
      image := Bytes.zeros (ImageRange.total outputLengths + ImageRange.total inputLengths)
      outputs := ImageRange.arrange 0 outputLengths
      inputs := ImageRange.arrange (ImageRange.total outputLengths) inputLengths }
  return size

/-- The place of a slave, and what the stack shows of it. -/
def slaveAt (slave : Int) : Action (StackEngine σ) (Nat × StackSlave) := do
  needOpen
  let slaves := Stack.slaves (← get).stack
  let place ← Action.ofExcept (placeIn slaves.length slave)
  return (place, slaves[place]?.getD default)

def slaveInfo (slave : Int) : Action (StackEngine σ) SlaveInfo := do
  let (_, found) ← slaveAt slave
  return {
    position := slave
    name := found.name.decoded
    vendorId := found.vendor
    productCode := found.product
    revision := found.revision
    state := found.state
    alStatus := found.alStatus
    outputBytes := found.output.length
    inputBytes := found.input.length }

/-- Check the working counter of a state request. -/
def checkRequest (state wkc : Int) : Action (StackEngine σ) Unit := do
  if wkc = -1 then throw (.communication .noFrame)
  if wkc = 0 then throw (.communication (.stateNotSet state))

/-- Request a state of one slave or of all. -/
def requestState (state : Int) (slave : Option Int) : Action (StackEngine σ) Unit := do
  match slave with
  | none =>
      needOpen
      checkRequest state (← call (Stack.writeState state))
  | some slave =>
      let (place, _) ← slaveAt slave
      checkRequest state (← call (Stack.writeSlaveState place state))

def checkState (state : Int) (timeout : Number) : Action (StackEngine σ) Int := do
  needOpen
  let micros ← Action.ofAccident (micros timeout)
  call (Stack.checkState state micros)

def readState : Action (StackEngine σ) Int := do
  needOpen
  call Stack.readState

def slaveState (slave : Int) : Action (StackEngine σ) (Int × Int) := do
  let (_, found) ← slaveAt slave
  return (found.state, found.alStatus)

def upload (slave : Int) (entry : EntryIndex) (complete : Bool) (size : Int)
    (timeout : Number) : Action (StackEngine σ) Bytes := do
  let micros ← Action.ofAccident (micros timeout)
  let (place, _) ← slaveAt slave
  callCatching isMailboxError (fun error => .sdoRead slave entry (uploadReason error))
    (Stack.upload place entry size complete micros)

def download (slave : Int) (entry : EntryIndex) (complete : Bool) (data : Bytes)
    (timeout : Number) : Action (StackEngine σ) Unit := do
  let micros ← Action.ofAccident (micros timeout)
  let (place, _) ← slaveAt slave
  callCatching isMailboxError (fun error => .sdoWrite slave entry error.text)
    (Stack.download place entry data complete micros)

def objectList (slave : Int) : Action (StackEngine σ) (List Int) := do
  let (place, _) ← slaveAt slave
  let objects ← callCatching isListError (fun error => .objectList slave error.text)
    (Stack.objects place)
  modify fun engine => { engine with objects := engine.objects.put slave objects }
  return objects.map StackObject.index

/-- The object list of a slave that was read. -/
def knownObjects (slave : Int) : Action (StackEngine σ) (List StackObject) := do
  match (← get).objects.get? slave with
  | some objects => return objects
  | none => throw (.objectList slave "object list not read")

/-- The object at a place of a list; beyond its end is a fault of its own. -/
def objectAt (objects : List StackObject) (item : Int) (beyond : Fault) :
    Except Fault StackObject :=
  if (objects.length : Int) ≤ item then .error beyond
  else (placeIn objects.length item).map fun place => objects[place]?.getD default

def objectDescription (slave item : Int) : Action (StackEngine σ) ObjectDescription := do
  let objects ← knownObjects slave
  let object ← Action.ofExcept
    (objectAt objects item (.objectDescription slave item [] "no such item"))
  return {
    index := object.index
    typeCode := object.typeCode
    objectCode := object.objectCode
    maxSubindex := none
    name := object.name.decoded }

def entryList (slave item : Int) : Action (StackEngine σ) (List EntryDescription) := do
  let objects ← knownObjects slave
  let object ← Action.ofExcept (objectAt objects item (.entryList slave item [] "no such item"))
  let count := (Stack.slaves (← get).stack).length
  let place := (placeIn count slave).toOption.getD 0
  let entries ← callCatching isListError (fun error => .entryList slave item [] error.text)
    (Stack.entries place object)
  if entries.isEmpty then
    return [⟨object.typeCode, object.bitLength, object.access, object.name.decoded⟩]
  else return entries.map fun entry => { entry with name := entry.name.decoded }

def expectedWkc : Action (StackEngine σ) Int := do
  needOpen
  return Stack.expectedWkc (← get).stack

/-- Hand each slave that has outputs its range of the image, from a place on. -/
def pushOutputs (image : Bytes) : (place : Nat) → List ImageRange → σ → σ
  | _, [], stack => stack
  | place, range :: rest, stack =>
      let stack := if range.length = 0 then stack
        else Stack.setOutput stack place (range.read image)
      pushOutputs image (place + 1) rest stack

/-- Refuse ranges that hold bytes of slaves that are no longer there. -/
def needSlaves (ranges : List ImageRange) : Action (StackEngine σ) Unit := do
  let count := (Stack.slaves (← get).stack).length
  if (ranges.drop count).any (·.length ≠ 0) then throw (.accident .position)

/-- Send the outputs of all slaves and take in their inputs, whatever working counter
comes back. -/
def exchange (timeout : Number) : Action (StackEngine σ) Int := do
  needOpen
  let engine ← get
  let count := (Stack.slaves engine.stack).length
  changeStack (pushOutputs engine.image 0 (engine.outputs.take count))
  needSlaves engine.outputs
  changeStack Stack.send
  let micros ← Action.ofAccident (micros timeout)
  let wkc ← call (Stack.receive micros)
  modify fun engine =>
    let received := (Stack.slaves engine.stack).map StackSlave.input
    { engine with image := ImageRange.copyIn received engine.inputs engine.image }
  needSlaves engine.inputs
  return wkc

end StackEngine

instance {σ : Type} [Stack σ] : Engine (StackEngine σ) where
  connect := StackEngine.connect
  disconnect := StackEngine.disconnect
  enumerate := StackEngine.enumerate
  mapImage := StackEngine.mapImage
  configureClocks := do
    StackEngine.needOpen
    let _ ← StackEngine.call Stack.configureClocks
  slaveCount engine := if engine.isOpen then (Stack.slaves engine.stack).length else 0
  slaveInfo := StackEngine.slaveInfo
  requestState state := StackEngine.requestState state none
  checkState := StackEngine.checkState
  readState := StackEngine.readState
  slaveState := StackEngine.slaveState
  upload := StackEngine.upload
  download := StackEngine.download
  objectList := StackEngine.objectList
  objectDescription := StackEngine.objectDescription
  entryList := StackEngine.entryList
  expectedWkc := StackEngine.expectedWkc
  outputRange slave := do Action.ofExcept (ImageRange.ofSlave (← get).outputs slave)
  inputRange slave := do Action.ofExcept (ImageRange.ofSlave (← get).inputs slave)
  exchange := StackEngine.exchange
  image engine := engine.image
  setImage engine image := { engine with image }
  now engine := Stack.now engine.stack
  wait engine seconds := { engine with stack := Stack.wait engine.stack seconds }
  taskStarted engine := { engine with stack := Stack.taskStarted engine.stack }
  taskJoined engine := { engine with stack := Stack.taskJoined engine.stack }

end Fieldbus
