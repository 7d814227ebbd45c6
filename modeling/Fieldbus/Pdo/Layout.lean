import Fieldbus.Dictionary.Basic
import Fieldbus.Pdo.Map
import Fieldbus.Session

/-!
# Layout of the process image

Resolves the process data map of a slave from three kinds of protocol objects: the
sync manager types, the objects assigned to each sync manager, and the mapping
words of each assigned object.  Outputs come first, then inputs, each by ascending
sync manager.  Bits accumulate per direction over all objects of the slave, and
positions count on over both directions.  A dictionary adds data types and names;
it has no influence on the layout.
-/

namespace Fieldbus

namespace Layout

variable {ε : Type} [Engine ε]

/-- The object that lists the types of the sync managers. -/
def typesIndex : Int := 0x1c00

/-- The object that lists what is assigned to a sync manager. -/
def assignmentIndex (sm : Nat) : Int :=
  0x1c10 + sm

def maxSyncManagers : Nat := 8

/-- The timeout of a mailbox read, unless another one is given. -/
def defaultTimeout : Number := .real (Binary64.ofNat 3)

/-- Read an unsigned number of `width` bytes. -/
def readUnsigned (slave : Int) (entry : EntryIndex) (width : Nat) (timeout : Number) :
    Action (Session ε) Nat := do
  let raw ← Session.ask (Engine.upload slave entry false width timeout)
  if raw.length < width then
    throw (.unexpectedData slave entry width raw.length)
  else return Bytes.toNat (raw.take width)

/-- The type of a sync manager with a reported code; an unknown code counts as
unused. -/
def typeOfCode (slave : Int) (sm code : Nat) : Action (Session ε) SyncManagerType :=
  match SyncManagerType.ofCode? code with
  | some type => pure type
  | none => do
      Session.warn .layout s!"Slave {slave}: SM {sm} reports unknown type {code}"
      return .unused

/-- Read the types of some sync managers.  A mailbox type at the first process-data
sync manager is a fault of the slave; that sync manager is left out. -/
def readTypes (slave : Int) (timeout : Number) :
    List Nat → Action (Session ε) (List (Nat × SyncManagerType))
  | [] => pure []
  | sm :: rest => do
      let code ← readUnsigned slave ⟨typesIndex, (sm + 1 : Nat)⟩ 1 timeout
      let type ← typeOfCode slave sm code
      if sm = 2 ∧ type = .mailboxRead then
        Session.warn .layout
          (s!"Slave {slave}: SM2 has type {type.code} (mailbox), " ++
            "this is a bug in the slave")
        readTypes slave timeout rest
      else
        let more ← readTypes slave timeout rest
        return (sm, type) :: more

/-- How far a layout has come: the bits of the current direction, and how many
objects and entries of the slave have been placed. -/
structure Cursor where
  bits : Nat
  pdos : Nat
  entries : Nat
  deriving DecidableEq, Repr, Inhabited

namespace Cursor

def start : Cursor := ⟨0, 0, 0⟩

def pass (cursor : Cursor) (bitLength : Nat) : Cursor :=
  { cursor with bits := cursor.bits + bitLength, entries := cursor.entries + 1 }

end Cursor

def place (cursor : Cursor) (entry : EntryIndex) (bitLength : Nat) (type : SyncManagerType)
    (info : Option EntryInfo) : MappedEntry where
  position := cursor.entries
  entry
  bitLength
  byteOffset := (cursor.bits / 8 : Nat)
  bitOffset := (cursor.bits % 8 : Nat)
  dataType := info.bind EntryInfo.dataType
  smType := type
  name := (info.map EntryInfo.name).getD (.text "")

/-- The warning about a missing or different dictionary entry. -/
def entryWarning? (slave : Int) (entry : EntryIndex) (bitLength : Nat) (info : Option EntryInfo) :
    Option Text :=
  match info with
  | none =>
      if entry.index = 0 then none
      else some s!"Slave {slave}: could not find SDO {entry.text} entry description"
  | some info =>
      if info.bitLength = bitLength then none
      else some (s!"Slave {slave}: {entry.text} is mapped with {bitLength} bits, " ++
        s!"dictionary says {info.bitLength}")

/-- The warning about an entry, other than a truth value, that starts inside a byte. -/
def offsetWarning? (slave : Int) (mapped : MappedEntry) : Option Text :=
  match mapped.dataType with
  | some type =>
      if mapped.bitOffset = 0 ∨ type = .bool then none
      else some (s!"Slave {slave}: {mapped.entry.text} ({type.name}) starts at " ++
        s!"bit {mapped.bitOffset} of byte {mapped.byteOffset}")
  | none => none

def warnMaybe : Option Text → Action (Session ε) Unit
  | some text => Session.warn .layout text
  | none => pure ()

/-- What a layout looks up and where it reads. -/
structure Source where
  dictionary : Option ObjectDictionary
  slave : Int
  timeout : Number

/-- Read a mapping word and place its entry. -/
def readEntry (source : Source) (type : SyncManagerType) (pdo : Int) (subindex : Nat)
    (cursor : Cursor) : Action (Session ε) (MappedEntry × Cursor) := do
  let word ← readUnsigned source.slave ⟨pdo, subindex⟩ 4 source.timeout
  let (entry, length) := unpackMapping word
  let bitLength := length.toNat
  let info := source.dictionary.bind (·.entryAt? source.slave entry)
  warnMaybe (entryWarning? source.slave entry bitLength info)
  let mapped := place cursor entry bitLength type info
  warnMaybe (offsetWarning? source.slave mapped)
  return (mapped, cursor.pass bitLength)

/-- Read the mapping words at some subindices of an object. -/
def readEntries (source : Source) (type : SyncManagerType) (pdo : Int) :
    List Nat → Cursor → Action (Session ε) (List MappedEntry × Cursor)
  | [], cursor => pure ([], cursor)
  | subindex :: rest, cursor => do
      let (mapped, cursor) ← readEntry source type pdo subindex cursor
      let (more, cursor) ← readEntries source type pdo rest cursor
      return (mapped :: more, cursor)

/-- The name of an object in the dictionary. -/
def readName (source : Source) (pdo : Int) : Action (Session ε) ReportedName :=
  match source.dictionary.bind (·.findObject? source.slave pdo) with
  | some object => pure object.name
  | none => do
      Session.warn .layout
        s!"Slave {source.slave}: could not find SDO 0x{Numeral.hex 4 pdo} name"
      return .text ""

/-- Read the object assigned at some subindex; an object without entries is left
out. -/
def readPdo (source : Source) (sm : Nat) (type : SyncManagerType) (subindex : Nat)
    (cursor : Cursor) : Action (Session ε) (Option Pdo × Cursor) := do
  let index ← readUnsigned source.slave ⟨assignmentIndex sm, subindex⟩ 2 source.timeout
  let count ← readUnsigned source.slave ⟨index, 0⟩ 1 source.timeout
  let (entries, cursor) ← readEntries source type index (List.range' 1 count) cursor
  if entries.isEmpty then return (none, cursor)
  else
    let name ← readName source index
    return (some { position := cursor.pdos, index, sm, name, entries },
      { cursor with pdos := cursor.pdos + 1 })

/-- Read the objects assigned at some subindices. -/
def readPdos (source : Source) (sm : Nat) (type : SyncManagerType) :
    List Nat → Cursor → Action (Session ε) (List Pdo × Cursor)
  | [], cursor => pure ([], cursor)
  | subindex :: rest, cursor => do
      let (pdo, cursor) ← readPdo source sm type subindex cursor
      let (more, cursor) ← readPdos source sm type rest cursor
      return (pdo.toList ++ more, cursor)

/-- Read what is assigned to one sync manager. -/
def readAssignment (source : Source) (sm : Nat) (type : SyncManagerType) (cursor : Cursor) :
    Action (Session ε) (PdoAssignment × Cursor) := do
  let count ← readUnsigned source.slave ⟨assignmentIndex sm, 0⟩ 1 source.timeout
  let (pdos, cursor) ← readPdos source sm type (List.range' 1 count) cursor
  return (⟨sm, type, pdos⟩, cursor)

/-- Read what is assigned to some sync managers of one type. -/
def readAssignments (source : Source) (type : SyncManagerType) :
    List Nat → Cursor → Action (Session ε) (List PdoAssignment × Cursor)
  | [], cursor => pure ([], cursor)
  | sm :: rest, cursor => do
      let (assignment, cursor) ← readAssignment source sm type cursor
      let (more, cursor) ← readAssignments source type rest cursor
      return (assignment :: more, cursor)

def ofType (type : SyncManagerType) (types : List (Nat × SyncManagerType)) : List Nat :=
  (types.filter (·.2 = type)).map Prod.fst

/-- The number of the last sync manager to consider, if the count of type entries
is large enough for any. -/
def lastSyncManager (slave : Int) (count : Nat) : Action (Session ε) Nat :=
  if maxSyncManagers < count - 1 then do
    Session.warn .layout
      (s!"Slave {slave}: {count - 1} sync managers reported, " ++
        s!"limited to {maxSyncManagers}")
    return maxSyncManagers
  else pure (count - 1)

/-- Resolve the process data map of a slave. -/
def resolve (dictionary : Option ObjectDictionary) (slave : Int) (timeout : Number) :
    Action (Session ε) PdoMap := do
  let source : Source := ⟨dictionary, slave, timeout⟩
  let count ← readUnsigned slave ⟨typesIndex, 0⟩ 1 timeout
  if count ≤ 2 then
    Session.warn .layout s!"Slave {slave}: found less than two sync manager types"
    return []
  else
    let last ← lastSyncManager slave count
    let types ← readTypes slave timeout (List.range' 2 (last - 1))
    let (outputs, cursor) ←
      readAssignments source .outputs (ofType .outputs types) Cursor.start
    let (inputs, _) ←
      readAssignments source .inputs (ofType .inputs types) { cursor with bits := 0 }
    return outputs ++ inputs

end Layout

end Fieldbus
