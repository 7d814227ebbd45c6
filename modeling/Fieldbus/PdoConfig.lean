import Fieldbus.Fault
import Fieldbus.Json.Reader

/-!
# PDO configuration

Which process data objects to assign to a slave.  A configuration file lists them
per slave position and in a default section; a list holds integers and numerals.
-/

namespace Fieldbus

/-- The objects to assign to the outputs and to the inputs of a slave. -/
structure PdoLists where
  rx : List Int
  tx : List Int
  deriving DecidableEq, Repr, Inhabited

structure PdoConfig where
  default? : Option PdoLists
  slaves : Table Int PdoLists
  deriving DecidableEq, Repr, Inhabited

namespace PdoConfig

def defaultRx : List Int := [0x1600]

def defaultTx : List Int := [0x1a00]

/-- A numeral in a text: hexadecimal if it starts with the mark, else decimal. -/
def textIndex (text : List Char) : Except Accident Int :=
  let base := match text with
    | '0' :: 'x' :: _ | '0' :: 'X' :: _ => 16
    | _ => 10
  match Numeral.integer? base text with
  | some index => .ok index
  | none => .error .value

/-- An index as a list item.  The places of a number are dropped. -/
def itemIndex : Json → Except Accident Int
  | .text text => textIndex text.toChars
  | .int index => .ok index
  | .bool value => .ok (if value then 1 else 0)
  | .real value =>
      if value.isNaN then .error .value
      else if value.isInfinite then .error .overflow
      else .ok value.truncate
  | _ => .error .kind

/-- The indices in a list.  A text is a list of its characters, and an object is a
list of its names. -/
def indices : Json → Except Accident (List Int)
  | .array items => items.mapM itemIndex
  | .text text => text.mapM fun unit => textIndex [unit.toChar]
  | .object fields => fields.mapM fun field => textIndex field.1.toChars
  | _ => .error .kind

/-- The two lists of a section; a missing list is empty. -/
def ofSection : Json → Except Accident PdoLists
  | .object fields => do
      let rx ← indices ((Json.field? fields "rx_pdo").getD (.array []))
      let tx ← indices ((Json.field? fields "tx_pdo").getD (.array []))
      return ⟨rx, tx⟩
  | _ => .error .noPart

/-- The slave position that a name stands for. -/
def position (name : Text) : Except Accident Int :=
  match Numeral.integer? 10 name.toChars with
  | some position => .ok position
  | none => .error .value

/-- Read the sections of the slaves in order. -/
def slaveSections : List (Text × Json) → Table Int PdoLists → Except Accident (Table Int PdoLists)
  | [], table => .ok table
  | (name, value) :: rest, table => do
      let lists ← ofSection value
      let slave ← position name
      slaveSections rest (table.put slave lists)

/-- Whether `pattern` stands somewhere in `text`. -/
def occurs (pattern : Text) : Text → Bool
  | [] => pattern.isEmpty
  | unit :: rest => pattern.isPrefixOf (unit :: rest) || occurs pattern rest

/-- The configuration that a document describes.  Only an object has sections; the
accidents of other documents depend on whether they contain the word `default`. -/
def ofDocument : Json → Except Accident PdoConfig
  | .object fields => do
      let default? ← match Json.field? fields "default" with
        | some value => (ofSection value).map some
        | none => pure none
      match (Json.field? fields "slaves").getD (.object []) with
      | .object slaves =>
          let slaves ← slaveSections slaves []
          return { default?, slaves }
      | _ => throw .noPart
  | .array items =>
      let isDefault (item : Json) : Bool := match item with
        | .text text => text = Text.ofString "default"
        | _ => false
      .error (if items.any isDefault then .kind else .noPart)
  | .text text => .error (if occurs (Text.ofString "default") text then .kind else .noPart)
  | _ => .error .kind

/-- The configuration in a file, given by its path and its content, if it exists. -/
def load (path : Text) (content : Option Bytes) : Except Fault PdoConfig :=
  match content.map Json.ofBytes with
  | none | some (.error .malformed) => .error (.configuration (.unreadable "PDO" path))
  | some (.error .tooDeep) => .error (.accident .depth)
  | some (.ok document) => (ofDocument document).mapError .accident

/-- The section for a slave: its own or else the default one. -/
def lookup? (config : PdoConfig) (slave : Int) : Option PdoLists :=
  (config.slaves.get? slave).orElse fun _ => config.default?

/-- A list, or another one if it is missing or empty. -/
def orElse (list : Option (List Int)) (other : List Int) : List Int :=
  match list with
  | some (index :: rest) => index :: rest
  | _ => other

/-- The lists for a slave: from the configuration, or else the given ones, or else
the first object of each direction. -/
def lists (config : Option PdoConfig) (slave : Int) (rx tx : Option (List Int)) : PdoLists :=
  (config.bind (·.lookup? slave)).getD ⟨orElse rx defaultRx, orElse tx defaultTx⟩

end PdoConfig

end Fieldbus
