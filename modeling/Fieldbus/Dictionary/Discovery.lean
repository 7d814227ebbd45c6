import Fieldbus.Dictionary.Basic
import Fieldbus.Session

/-!
# Discovery of object dictionaries

Reads the objects of a slave one after the other: the list of indices first, then
for each place in the list a description and the descriptions of its entries.
-/

namespace Fieldbus

namespace Discovery

variable {ε : Type} [Engine ε]

/-- Stands for an entry that the slave does not describe. -/
def missingEntry : EntryDescription := ⟨0, 0, 0, .text ""⟩

/-- What an entry description says of an entry. -/
def entryInfo (index : Int) (subindex : Nat) (description : EntryDescription) : EntryInfo where
  entry := ⟨index, subindex⟩
  dataType := DataType.ofCode? description.typeCode
  bitLength := description.bitLength
  access := EntryAccess.ofBits description.access
  name := description.name
  typeCode := description.typeCode

/-- The warning about an entry that cannot be decoded. -/
def entryWarning? (slave : Int) (info : EntryInfo) : Option Text :=
  if info.dataType.isNone || info.bitLength = 0 then
    some (s!"Slave {slave}: invalid entry at {info.entry.text}: " ++
      s!"data type 0x{Numeral.hex 4 info.typeCode} with bit length {info.bitLength}")
  else none

/-- The object at a place of the list. -/
def objectInfo (item : Nat) (description : ObjectDescription)
    (entries : List EntryDescription) : ObjectInfo :=
  let maxSubindex := description.maxSubindex.getD ((entries.length - 1 : Nat) : Int)
  { position := item
    index := description.index
    objectCode := description.objectCode
    maxSubindex
    name := description.name
    entries := (List.range (maxSubindex + 1).toNat).map fun subindex =>
      entryInfo description.index subindex (entries[subindex]?.getD missingEntry) }

/-- Report a list of warnings in order. -/
def warnAll (source : Source) : List Text → Action (Session ε) Unit
  | [] => pure ()
  | text :: rest => do
      Session.warn source text
      warnAll source rest

/-- Read the object at a place of the list. -/
def readObject (slave : Int) (item : Nat) : Action (Session ε) ObjectInfo := do
  let description ← Session.ask (Engine.objectDescription slave item)
  let entries ← Session.ask (Engine.entryList slave item)
  let object := objectInfo item description entries
  warnAll .dictionary (object.entries.filterMap (entryWarning? slave))
  return object

/-- Put the completed objects into a fault of a description request. -/
def withCompleted (completed : List ObjectInfo) : Fault → Fault
  | .objectDescription slave position _ reason =>
      .objectDescription slave position completed reason
  | .entryList slave position _ reason => .entryList slave position completed reason
  | fault => fault

/-- Read `count` objects from a place of the list on; `completed` are those before. -/
def readObjectsFrom (slave : Int) : (count item : Nat) → (completed : List ObjectInfo) →
    Action (Session ε) (List ObjectInfo)
  | 0, _, completed => pure completed
  | count + 1, item, completed => do
      let object ← Action.mapFault (withCompleted completed) (readObject slave item)
      readObjectsFrom slave count (item + 1) (completed ++ [object])

/-- Read all objects of a slave.  A fault of a description request carries the
objects that were completed before it. -/
def readObjects (slave : Int) : Action (Session ε) (List ObjectInfo) := do
  let indices ← Session.ask (Engine.objectList slave)
  readObjectsFrom slave indices.length 0 []

end Discovery

end Fieldbus
