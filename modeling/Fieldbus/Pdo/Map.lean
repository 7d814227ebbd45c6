import Fieldbus.Dictionary.Entry

/-!
# Process data maps

Where the entries of a slave lie in its part of the process image.
-/

namespace Fieldbus

/-- What a sync manager is used for. -/
inductive SyncManagerType where
  | unused | mailboxWrite | mailboxRead | outputs | inputs
  deriving DecidableEq, Repr, Inhabited

namespace SyncManagerType

def code : SyncManagerType → Nat
  | unused => 0
  | mailboxWrite => 1
  | mailboxRead => 2
  | outputs => 3
  | inputs => 4

def name : SyncManagerType → String
  | unused => "UNUSED"
  | mailboxWrite => "MAILBOX_WRITE"
  | mailboxRead => "MAILBOX_READ"
  | outputs => "OUTPUTS"
  | inputs => "INPUTS"

def all : List SyncManagerType := [unused, mailboxWrite, mailboxRead, outputs, inputs]

def ofCode? (code : Nat) : Option SyncManagerType :=
  all.find? fun type => type.code = code

def ofName? (name : String) : Option SyncManagerType :=
  all.find? fun type => type.name = name

end SyncManagerType

/-- The number of bytes that hold so many bits. -/
def byteCount (bitLength : Int) : Int :=
  (bitLength + 7) / 8

/-- The entry and the bit length in a mapping word: bits 31 to 16 are the object
index, bits 15 to 8 the subindex, bits 7 to 0 the length. -/
def unpackMapping (word : Int) : EntryIndex × Int :=
  (⟨word / 0x10000 % 0x10000, word / 0x100 % 0x100⟩, word % 0x100)

/-- The place of one mapped entry.  Entries of object index zero are padding. -/
structure MappedEntry where
  position : Nat
  entry : EntryIndex
  bitLength : Int
  byteOffset : Int
  bitOffset : Int
  dataType : Option DataType
  smType : SyncManagerType
  name : ReportedName
  deriving DecidableEq, Repr, Inhabited

namespace MappedEntry

def byteCount (info : MappedEntry) : Int :=
  Fieldbus.byteCount info.bitLength

def isPadding (info : MappedEntry) : Bool :=
  info.entry.index = 0

end MappedEntry

/-- A process data object: entries that are mapped together. -/
structure Pdo where
  position : Nat
  index : Int
  sm : Int
  name : ReportedName
  entries : List MappedEntry
  deriving DecidableEq, Repr, Inhabited

/-- The process data objects of one sync manager. -/
structure PdoAssignment where
  sm : Int
  smType : SyncManagerType
  pdos : List Pdo
  deriving DecidableEq, Repr, Inhabited

namespace PdoAssignment

def entries (assignment : PdoAssignment) : List MappedEntry :=
  assignment.pdos.flatMap Pdo.entries

end PdoAssignment

/-- The process data map of a slave, outputs first. -/
abbrev PdoMap := List PdoAssignment

namespace PdoMap

def entries (map : PdoMap) : List MappedEntry :=
  map.flatMap PdoAssignment.entries

/-- The number of bits that the assignments of one type map. -/
def bits (map : PdoMap) (type : SyncManagerType) : Int :=
  ((map.filter (·.smType = type)).flatMap PdoAssignment.entries).foldl
    (fun sum info => sum + info.bitLength) 0

end PdoMap

end Fieldbus
