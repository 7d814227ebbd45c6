import Fieldbus.Dictionary.Entry
import Fieldbus.Fault
import Fieldbus.Table

/-!
# Object dictionaries

The objects of each slave that was read, in the order of reading.  Where a slave
lists an index twice, look-ups see the last object.
-/

namespace Fieldbus

structure ObjectDictionary where
  slaves : Table Int (List ObjectInfo)
  deriving DecidableEq, Repr, Inhabited

namespace ObjectDictionary

def empty : ObjectDictionary := ⟨[]⟩

def size (dictionary : ObjectDictionary) : Nat :=
  dictionary.slaves.length

def positions (dictionary : ObjectDictionary) : List Int :=
  dictionary.slaves.map Prod.fst

def get? (dictionary : ObjectDictionary) (slave : Int) : Option (List ObjectInfo) :=
  dictionary.slaves.get? slave

/-- A summary: how many objects each slave has. -/
def text (dictionary : ObjectDictionary) : String :=
  let sizes := dictionary.slaves.map fun pair => s!"{pair.1}: {pair.2.length}"
  "ObjectDictionary(\x7b" ++ ", ".intercalate sizes ++ "\x7d)"

def objects (dictionary : ObjectDictionary) (slave : Int) : Except Fault (List ObjectInfo) :=
  match dictionary.get? slave with
  | some objects => .ok objects
  | none => .error (.slaveNotFound slave)

/-- The last listed object with a given index. -/
def findObject? (dictionary : ObjectDictionary) (slave index : Int) : Option ObjectInfo :=
  (dictionary.get? slave).bind fun objects => objects.reverse.find? (·.index = index)

def object (dictionary : ObjectDictionary) (slave index : Int) : Except Fault ObjectInfo :=
  match dictionary.get? slave with
  | none => .error (.slaveNotFound slave)
  | some _ =>
      match dictionary.findObject? slave index with
      | some object => .ok object
      | none => .error (.indexNotFound slave index)

/-- The address to look up.  A look-up that finds the object needs the subindex; one
that does not find it takes a lacking one for 0. -/
def locate (dictionary : ObjectDictionary) (slave : Int) (address : EntryAddress) :
    Except Fault EntryIndex :=
  match address.subindex, dictionary.findObject? slave address.index with
  | none, some _ => .error (.accident .position)
  | _, _ => .ok address.entry

def entryAt? (dictionary : ObjectDictionary) (slave : Int) (entry : EntryIndex) :
    Option EntryInfo :=
  (dictionary.findObject? slave entry.index).bind (·.entryAt? entry.subindex)

def entry (dictionary : ObjectDictionary) (slave : Int) (entry : EntryIndex) :
    Except Fault EntryInfo :=
  match dictionary.get? slave with
  | none => .error (.slaveNotFound slave)
  | some _ =>
      match dictionary.entryAt? slave entry with
      | some info => .ok info
      | none => .error (.entryNotFound slave entry)

/-- The entries of an object.  Subindex 0 is left out unless it is asked for or the
object has no other. -/
def entries (dictionary : ObjectDictionary) (slave index : Int) (includeFirst : Bool) :
    Except Fault (List EntryInfo) := do
  let object ← dictionary.object slave index
  return if includeFirst || object.maxSubindex = 0 then object.entries else object.entries.drop 1

end ObjectDictionary

end Fieldbus
