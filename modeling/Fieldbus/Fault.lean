import Fieldbus.AlStatus
import Fieldbus.AlState
import Fieldbus.Pdo.Map
import Fieldbus.Value.Basic

/-!
# Faults

Why an operation fails.  A fault of the library names its cause; `message` words
it.  Two more families can surface: errors of the frame stack that the library
does not expect, and accidents, which are values that an operation cannot take.
-/

namespace Fieldbus

/-- Stands in a message for the wording of a cause below the library. -/
def causeText : String := "<cause>"

inductive ConnectionFault where
  | noAdapters
  | adapterNotFound (name : Text) (available : List Text)
  | adapterNotOpened (name : Text) (reason : Text)
  | noSlaves
  | operationalNotReached (report : Text)
  /-- Worded by the engine. -/
  | engine (text : Text)
  deriving DecidableEq, Repr, Inhabited

inductive CommunicationFault where
  | noFrame
  | unknownFrame
  | stateNotSet (state : Int)
  | stateMismatch (found expected : Int)
  deriving DecidableEq, Repr, Inhabited

inductive ConfigurationFault where
  /-- The file of a bus or PDO configuration cannot be read as a document. -/
  | unreadable (what : String) (path : Text)
  | networkNotObject (path : Text)
  | networkInvalid (path : Text)
  | cycleNotPositive
  | timeoutNotPositive
  /-- Writing a PDO assignment stopped at the labelled step. -/
  | assignment (reason label : Text)
  | sizeMismatch (text : Text)
  | discovery (slave : Int) (reason : Text)
  | mapGroup (reason : Text)
  /-- Worded by the engine. -/
  | engine (text : Text)
  deriving DecidableEq, Repr, Inhabited

/-- What is wrong with decoding as a data type. -/
inductive TypeObjection where
  | unknown
  | zeroLength
  | unaligned (bitLength : Int)
  | bitOffset (offset : Int)
  | width (bitLength : Int)
  | entry (entry : EntryIndex) (slave : Int)
  deriving DecidableEq, Repr, Inhabited

/-- What is wrong with encoding a value. -/
inductive ValueObjection where
  | needsBool
  | bitOffset (offset : Int)
  | needsText
  | needsBytes
  | noEncoding
  | needsNumber
  | needsInteger
  | outOfRange
  deriving DecidableEq, Repr, Inhabited

inductive CodecFault where
  | emptyBuffer
  | bufferTooSmall (expected : Int) (actual : Nat)
  /-- The type, or the code of a type that is not known. -/
  | unsupportedType (type : Option DataType ⊕ Int) (objection : TypeObjection)
  | unsupportedValue (value : Value) (objection : ValueObjection)
  deriving Repr, Inhabited

/-- Why a value does not fit a mapped entry. -/
inductive Mismatch where
  | type (expected given : DataType)
  | size (encoded : Nat) (held : Int)
  | outside (stop : Int) (held : Nat)
  deriving DecidableEq, Repr, Inhabited

/-- An operation met a value that it cannot take. -/
inductive Accident where
  /-- A position outside a list. -/
  | position
  /-- A request to a stack that is not open. -/
  | notOpen
  /-- A value without the asked part. -/
  | noPart
  /-- A value of the wrong kind. -/
  | kind
  /-- A value of the right kind that cannot be taken. -/
  | value
  /-- A key that is not in a table. -/
  | key
  /-- A number beyond the range of binary64. -/
  | overflow
  /-- A number that does not fit a field of a frame. -/
  | field
  /-- A text without an encoding. -/
  | encoding
  /-- A document that nests too deep. -/
  | depth
  deriving DecidableEq, Repr, Inhabited

/-- The kind of an error of the frame stack. -/
inductive StackErrorKind where
  | sdo | wkc | mailbox | packet | sdoInfo | configMap | os | runtime | value
  deriving DecidableEq, Repr, Inhabited

/-- An error of the frame stack with its text.  Mailbox errors may carry an abort
code and its description. -/
structure StackError where
  kind : StackErrorKind
  text : Text
  abort : Option Int
  details : Option Text
  deriving DecidableEq, Repr, Inhabited

inductive Fault where
  | connection (cause : ConnectionFault)
  | communication (cause : CommunicationFault)
  | configuration (cause : ConfigurationFault)
  | sdoRead (slave : Int) (entry : EntryIndex) (reason : Text)
  | sdoWrite (slave : Int) (entry : EntryIndex) (reason : Text)
  | objectList (slave : Int) (reason : Text)
  /-- `completed` holds the objects that were read before the failing one. -/
  | objectDescription (slave : Int) (position : Int) (completed : List ObjectInfo)
      (reason : Text)
  | entryList (slave : Int) (position : Int) (completed : List ObjectInfo) (reason : Text)
  /-- A protocol object holds fewer bytes than it has to. -/
  | unexpectedData (slave : Int) (entry : EntryIndex) (expected actual : Nat)
  | codec (cause : CodecFault)
  | slaveNotFound (slave : Int)
  | indexNotFound (slave : Int) (index : Int)
  | entryNotFound (slave : Int) (entry : EntryIndex)
  | wrongDirection (slave : Int) (entry : EntryIndex) (smType : SyncManagerType)
  | valueMismatch (slave : Int) (entry : EntryIndex) (mismatch : Mismatch)
  | alState (slave : Int) (state : Int) (status : AlStatus)
  | stack (error : StackError)
  | accident (cause : Accident)
  deriving Repr, Inhabited

/-- A reason after a colon, if there is one. -/
def withReason (text reason : Text) : Text :=
  if reason.isEmpty then text else text ++ ": " ++ reason

namespace ConnectionFault

def message : ConnectionFault → Text
  | noAdapters => "No network adapters found"
  | adapterNotFound name available =>
      "Adapter '" ++ name ++ "' not found. Available: " ++ Text.joinWith ", " available
  | adapterNotOpened name reason => "Could not open adapter '" ++ name ++ "': " ++ reason
  | noSlaves => "No EtherCAT slaves found"
  | operationalNotReached report => "Failed to reach OP state.\n" ++ report
  | engine text => text

end ConnectionFault

namespace CommunicationFault

def message : CommunicationFault → String
  | noFrame => "No frame received"
  | unknownFrame => "Unknown frame received"
  | stateNotSet state => "Could not set state 0x" ++ Numeral.hex 2 state
  | stateMismatch found expected =>
      s!"Current state {AlState.codeText found} does not match expected state " ++
        AlState.codeText expected

end CommunicationFault

namespace ConfigurationFault

def message : ConfigurationFault → Text
  | unreadable what path => s!"Could not load {what} config " ++ path ++ s!": {causeText}"
  | networkNotObject path => "'network' in " ++ path ++ " must be an object"
  | networkInvalid path => "Invalid 'network' section in " ++ path ++ s!": {causeText}"
  | cycleNotPositive => "cycle_ms must be > 0"
  | timeoutNotPositive => "timeouts must be > 0"
  | assignment reason label => reason ++ " (" ++ label ++ ")"
  | sizeMismatch text => text
  | discovery slave reason => s!"Discovery failed for slave {slave}: " ++ reason
  | mapGroup reason => "Could not configure map group: " ++ reason
  | engine text => text

end ConfigurationFault

namespace TypeObjection

def text : TypeObjection → String
  | unknown => ""
  | zeroLength => "bit length 0"
  | unaligned bitLength => s!"{bitLength} bit wide entries are not byte aligned"
  | bitOffset offset => s!"bit offset {offset}"
  | width bitLength => s!"bit length {bitLength} does not match the type width"
  | entry address slave => s!"entry {address.text} of slave {slave}"

end TypeObjection

namespace ValueObjection

def text (type : DataType) : ValueObjection → String
  | needsBool => "BOOL needs a bool"
  | bitOffset offset => s!"bit offset {offset}"
  | needsText => "STRING needs a str"
  | needsBytes => type.name ++ " needs bytes"
  | noEncoding => "no encoding for " ++ type.name
  | needsNumber => type.name ++ " needs a number"
  | needsInteger => type.name ++ " needs an int"
  | outOfRange => causeText

end ValueObjection

namespace CodecFault

/-- A data type, an unknown one or the code of one. -/
def typeText : Option DataType ⊕ Int → String
  | .inl (some type) => type.name
  | .inl none => "None"
  | .inr code => toString code

def message : CodecFault → String
  | emptyBuffer => "Cannot decode a value from an empty buffer"
  | bufferTooSmall expected actual =>
      s!"Buffer too small: expected {expected} byte(s), got {actual}"
  | unsupportedType type objection =>
      let text := "Unsupported data type " ++ typeText type
      if objection.text.isEmpty then text else s!"{text} ({objection.text})"
  | unsupportedValue value objection =>
      s!"Unsupported value {value.shown}: {objection.text value.dataType}"

end CodecFault

namespace Mismatch

def text : Mismatch → String
  | type expected given => s!"entry is {expected.name}, value is {given.name}"
  | size encoded held => s!"encoded {encoded} byte(s), entry holds {held}"
  | outside stop held => s!"entry ends at byte {stop}, outputs hold {held}"

end Mismatch

namespace Fault

/-- The wording of a fault.  An accident has none. -/
def message : Fault → Text
  | connection cause => cause.message
  | communication cause => cause.message
  | configuration cause => cause.message
  | sdoRead slave entry reason =>
      withReason s!"Could not read {entry.text} of slave {slave}" reason
  | sdoWrite slave entry reason =>
      withReason s!"Could not write {entry.text} of slave {slave}" reason
  | objectList slave reason => withReason s!"Could not read OD list of slave {slave}" reason
  | objectDescription slave position _ reason =>
      withReason s!"Could not read OD description #{position} of slave {slave}" reason
  | entryList slave position _ reason =>
      withReason s!"Could not read OE list #{position} of slave {slave}" reason
  | unexpectedData slave entry expected actual =>
      s!"Unexpected data at {entry.text} of slave {slave}: " ++
        s!"expected {expected} byte(s), got {actual}"
  | codec cause => cause.message
  | slaveNotFound slave => s!"No discovery data for slave {slave}"
  | indexNotFound slave index => s!"Index 0x{Numeral.hex 4 index} not found at slave {slave}"
  | entryNotFound slave entry => s!"Entry {entry.text} not found at slave {slave}"
  | wrongDirection slave entry smType =>
      s!"Entry {entry.text} of slave {slave} is mapped to {smType.name}, not to OUTPUTS"
  | valueMismatch slave entry mismatch =>
      s!"Cannot write {entry.text} of slave {slave}: {mismatch.text}"
  | alState slave state status =>
      s!"Invalid AL state 0x{Numeral.hex 2 state} of slave {slave} (AL status {status.name})"
  | stack error => error.text
  | accident _ => ""

/-- A fault of the exchange with the slaves: such a fault of one slave does not
end the discovery of the others. -/
def isCommunication : Fault → Bool
  | communication _ | sdoRead .. | sdoWrite .. | objectList .. | objectDescription ..
  | entryList .. | unexpectedData .. => true
  | _ => false

/-- A fault that the library raises itself. -/
def isLibrary : Fault → Bool
  | stack _ | accident _ => false
  | _ => true

/-- The objects that discovery completed before a fault. -/
def completed : Fault → List ObjectInfo
  | objectDescription _ _ objects _ | entryList _ _ objects _ => objects
  | _ => []

end Fault

end Fieldbus
