import Fieldbus.Json.Reader
import Fieldbus.Segment.Basic

/-!
# Descriptions of segments

A simulated segment is described by a JSON document.  A field that is left out keeps
its present value, so the same fields set up a segment and change it later.  Bytes
are pairs of hexadecimal digits, and a script is the list of its answers.
-/

namespace Fieldbus

namespace StackErrorKind

/-- The kind of an error that a description names; other names are those of a
mailbox transfer. -/
def ofName (name : String) : StackErrorKind :=
  match name with
  | "wkc" => wkc
  | "mailbox" => mailbox
  | "packet" => packet
  | "info" => sdoInfo
  | "map" => configMap
  | "system" => os
  | "runtime" => runtime
  | "value" => value
  | _ => sdo

end StackErrorKind

namespace Description

def fields : Json → List (Text × Json)
  | .object fields => fields
  | _ => []

def items : Json → List Json
  | .array items => items
  | _ => []

/-- The item at a place of a list. -/
def item (document : Json) (place : Nat) : Json :=
  (items document)[place]?.getD .null

/-- A whole number, or another one where the document has none. -/
def wholeOr (other : Int) : Json → Int
  | .int value => value
  | .bool value => if value then 1 else 0
  | _ => other

def wholes (document : Json) : List Int :=
  (items document).map (wholeOr 0)

/-- A number: whole, or with places. -/
def number : Json → Number
  | .real value => .real value
  | document => .int (wholeOr 0 document)

/-- What a document describes, unless it is null. -/
def given {α : Type} (read : Json → α) : Json → Option α
  | .null => none
  | document => some (read document)

def text : Json → Text
  | .text text => text
  | _ => ""

def bytesOfDigits : List Char → Bytes
  | high :: low :: rest =>
      let digit (c : Char) : Nat := (Numeral.digitValue? c).getD 0
      UInt8.ofNat (digit high * 16 + digit low) :: bytesOfDigits rest
  | _ => []

def bytes (document : Json) : Bytes :=
  bytesOfDigits (text document).toChars

/-- A name: a text, or an object whose field `b` holds bytes. -/
def name : Json → ReportedName
  | .object fields => .bytes (((Json.field? fields "b").map bytes).getD [])
  | document => .text (text document)

/-- An error: its kind `exc`, its `text`, and the fields `abort` and `desc` of mailbox
errors.  A null `abort` is no code, but `desc` counts whatever it is. -/
def error (document : Json) : StackError where
  kind := .ofName (((Json.field? (fields document) "exc").map text).getD "").toString
  text := ((Json.field? (fields document) "text").map text).getD ""
  abort := (Json.field? (fields document) "abort").bind (given (wholeOr 0))
  details := (Json.field? (fields document) "desc").map fun details =>
    (Payload.ofJson details).words

/-- An answer of a mailbox: data, null for no object, or an error. -/
def mailboxItem : Json → MailboxItem
  | .null => .missing
  | .object fields => .error (error (.object fields))
  | document => .data (bytes document)

/-- A script of mailbox answers; a single answer is a script. -/
def mailboxScript : Json → Script MailboxItem
  | .array items => items.map mailboxItem
  | document => [mailboxItem document]

/-- An error for one place: the place and the error. -/
def placedError (document : Json) : Int × StackError :=
  (wholeOr 0 (item document 0), error (item document 1))

def entryIndex (document : Json) : EntryIndex :=
  ⟨wholeOr 0 (item document 0), wholeOr 0 (item document 1)⟩

/-- An entry of an object: its type code, bit length, access word and name. -/
def entry (document : Json) : EntryDescription where
  typeCode := wholeOr 0 (item document 0)
  bitLength := wholeOr 0 (item document 1)
  access := wholeOr 0 (item document 2)
  name := name (item document 3)

def object (document : Json) : SimulatedObject :=
  let field (name : String) : Json := (Json.field? (fields document) name).getD .null
  { index := wholeOr 0 (field "index")
    typeCode := wholeOr 0 (field "type")
    objectCode := wholeOr 9 (field "code")
    maxSubindex := given (wholeOr 0) (field "max_sub")
    name := name (field "name")
    entries := (items (field "entries")).map entry
    bitLength := wholeOr 0 (field "bits")
    access := wholeOr 0 (field "access") }

/-- Put scripts under the keys of a list. -/
def merge {κ : Type} [DecidableEq κ] (key : Json → κ) (place : Nat)
    (table : Table κ (Script MailboxItem)) (document : Json) : Table κ (Script MailboxItem) :=
  (items document).foldl
    (fun table pair => table.put (key pair) (mailboxScript (item pair place))) table

def setSlaveField (slave : SimulatedSlave) (field : Text × Json) : SimulatedSlave :=
  let value := field.2
  match field.1.toString with
  | "name" => { slave with name := name value }
  | "vendor" => { slave with vendor := wholeOr slave.vendor value }
  | "product" => { slave with product := wholeOr slave.product value }
  | "revision" => { slave with revision := wholeOr slave.revision value }
  | "state" => { slave with state := wholeOr slave.state value }
  | "al_status" => { slave with alStatus := wholeOr slave.alStatus value }
  | "out" => { slave with outputBytes := (wholeOr slave.outputBytes value).toNat }
  | "in" => { slave with inputBytes := (wholeOr slave.inputBytes value).toNat }
  | "inputs" => { slave with inputs := given bytes value }
  | "refuse" => { slave with refused := wholes value }
  | "objects" => { slave with objects := (items value).map object }
  | "sdo" => { slave with mailbox := merge entryIndex 2 slave.mailbox value }
  | "ca" =>
      let key (pair : Json) : Int := wholeOr 0 (item pair 0)
      { slave with complete := merge key 1 slave.complete value }
  | "write_err" =>
      let errors := (items value).map fun triple => (entryIndex triple, error (item triple 2))
      { slave with writeErrors := Table.ofList errors }
  | "od_err" => { slave with listError := given error value }
  | "desc_err" => { slave with descriptionError := given placedError value }
  | "oe_err" => { slave with entriesError := given placedError value }
  | _ => slave

/-- Set the fields of a slave that a document holds. -/
def setSlave (slave : SimulatedSlave) (document : Json) : SimulatedSlave :=
  (fields document).foldl setSlaveField slave

def setSegmentField (segment : Segment) (field : Text × Json) : Segment :=
  let value := field.2
  match field.1.toString with
  | "slaves" => { segment with slaves := (items value).map (setSlave SimulatedSlave.plain) }
  | "wkc" =>
      let script := fun answers => (items answers).map (given (wholeOr 0))
      { segment with wkc := given script value }
  | "expected_wkc" => { segment with expectedWkc := wholeOr segment.expectedWkc value }
  | "state_script" => { segment with foundStates := given wholes value }
  | "write_state" => { segment with stateWkc := wholes value }
  | "sdo_us" => { segment with uploadMicros := (items value).map number }
  | "exchange_us" => { segment with exchangeMicros := (items value).map number }
  | "errors" =>
      let errorOf (name : String) : Option StackError :=
        (Json.field? (fields value) name).bind (given error)
      { segment with openError := errorOf "open", mapError := errorOf "config_map" }
  | "config_init" => { segment with enumerated := given (wholeOr 0) value }
  | "dc" => { segment with hasClocks := (Payload.ofJson value).isSet }
  | "adapters" =>
      let adapter (pair : Json) := (name (item pair 0), name (item pair 1))
      { segment with adapters := (items value).map adapter }
  | _ => segment

/-- Set the fields of a segment that a document holds. -/
def setSegment (segment : Segment) (document : Json) : Segment :=
  (fields document).foldl setSegmentField segment

/-- Set the fields of a segment, or of the slave at a position of it. -/
def change (segment : Segment) (slave : Option Int) (document : Json) : Except Fault Segment :=
  match slave with
  | none => .ok (setSegment segment document)
  | some position =>
      match segment.place? position, segment.slave? position with
      | some place, some slave => .ok (segment.setSlave place (setSlave slave document))
      | _, _ => .error (.accident .position)

def segment (document : Json) : Segment :=
  setSegment Segment.bare document

end Description

end Fieldbus
