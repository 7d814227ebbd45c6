import Fieldbus.Notice
import Fieldbus.Value.Encoding

/-!
# Values of a process data map

Reads and writes mapped values in the inputs and outputs of one slave.
-/

namespace Fieldbus

namespace MappedEntry

/-- The bytes of a buffer that the entry touches. -/
def window (info : MappedEntry) (buffer : Bytes) : Bytes :=
  buffer.slice info.byteOffset (info.byteOffset + info.byteCount)

/-- Decode the entry from the buffer of its direction. -/
def decode (info : MappedEntry) (buffer : Bytes) : Except CodecFault Value :=
  Value.decode info.dataType info.bitLength (info.window buffer) info.bitOffset

/-- Whether the entry has a value: it is neither padding nor empty. -/
def hasValue (info : MappedEntry) : Bool :=
  !info.isPadding && info.bitLength ≠ 0

/-- The warning about an entry that does not decode. -/
def skipNotice (slave : Int) (info : MappedEntry) (fault : CodecFault) : Notice :=
  ⟨.warning, .processData,
    s!"Slave {slave}: skip PDO entry {info.entry.text}: {fault.message}"⟩

end MappedEntry

/-- The buffer that holds the entries of an assignment. -/
def PdoAssignment.buffer? (inputs outputs : Bytes) (assignment : PdoAssignment) : Option Bytes :=
  match assignment.smType with
  | .outputs => some outputs
  | .inputs => some inputs
  | _ => none

/-- A mapped entry with its value, or with why it has none. -/
abbrev Decoded := MappedEntry × Except CodecFault Value

namespace Decoded

def value? : Decoded → Option (EntryIndex × Value)
  | (info, .ok value) => some (info.entry, value)
  | (_, .error _) => none

/-- The notice about an entry without a value. -/
def notice? (slave : Int) : Decoded → Option Notice
  | (_, .ok _) => none
  | (info, .error fault) => some (info.skipNotice slave fault)

end Decoded

namespace PdoMap

/-- The bits that outputs and inputs map.  Assignments of other types must not have
entries. -/
def bitSizes (map : PdoMap) : Except Accident (Int × Int) :=
  let isOther (assignment : PdoAssignment) : Bool :=
    assignment.smType ≠ .outputs && assignment.smType ≠ .inputs
  if map.any fun assignment => isOther assignment && !assignment.entries.isEmpty then
    .error .key
  else .ok (map.bits .outputs, map.bits .inputs)

/-- The first mapping of an entry; a mapping to outputs wins. -/
def find? (map : PdoMap) (entry : EntryIndex) : Option MappedEntry :=
  let mapped := map.entries.filter (·.entry = entry)
  (mapped.find? (·.smType = .outputs)).orElse fun _ => mapped.head?

/-- Decode all mapped entries that have a value, in the order of the map. -/
def decodeAll (map : PdoMap) (inputs outputs : Bytes) : List Decoded :=
  map.flatMap fun assignment =>
    match assignment.buffer? inputs outputs with
    | some buffer =>
        (assignment.entries.filter MappedEntry.hasValue).map fun info =>
          (info, info.decode buffer)
    | none => []

/-- The values of all mapped entries that decode, and the notices about the others. -/
def readValues (slave : Int) (map : PdoMap) (inputs outputs : Bytes) :
    List (EntryIndex × Value) × List Notice :=
  let decoded := map.decodeAll inputs outputs
  (decoded.filterMap Decoded.value?, decoded.filterMap (Decoded.notice? slave))

/-- Check a write: the entry has to be mapped to outputs, the value has to have its
type, if that is known, and its size. -/
def checkWrite (slave : Int) (map : PdoMap) (entry : EntryIndex) (value : Value) :
    Except Fault (MappedEntry × Bytes) :=
  match map.find? entry with
  | none => .error (.entryNotFound slave entry)
  | some info =>
      if info.smType ≠ .outputs then .error (.wrongDirection slave entry info.smType)
      else
        match info.dataType.filter (· ≠ value.dataType) with
        | some type => .error (.valueMismatch slave entry (.type type value.dataType))
        | none =>
            if value.dataType = .bool then
              (value.encode info.bitOffset).map (info, ·)
            else do
              let data ← value.encode 0
              if (data.length : Int) ≠ info.byteCount then
                throw (.valueMismatch slave entry (.size data.length info.byteCount))
              return (info, data)

/-- Set or clear the bits of `mask` in a byte. -/
def patch (byte mask : UInt8) (truth : Bool) : UInt8 :=
  if truth then byte ||| mask else byte &&& ~~~mask

/-- Patch the byte at a position, which may count from the end. -/
def patchAt (outputs : Bytes) (position : Int) (mask : UInt8) (truth : Bool) :
    Except Fault Bytes :=
  let place := if position < 0 then position + outputs.length else position
  match if place < 0 then none else outputs[place.toNat]? with
  | some byte => .ok (outputs.set place.toNat (patch byte mask truth))
  | none => .error (.accident .position)

/-- Write a value into the outputs of a slave.  A truth value changes its bit only;
any other value replaces the bytes of the entry. -/
def write (slave : Int) (map : PdoMap) (outputs : Bytes) (entry : EntryIndex) (value : Value) :
    Except Fault Bytes := do
  let (info, data) ← map.checkWrite slave entry value
  let stop := info.byteOffset + info.byteCount
  if (outputs.length : Int) < stop then
    throw (.valueMismatch slave info.entry (.outside stop outputs.length))
  match value.dataType, value.payload with
  | .bool, .bool truth =>
      patchAt outputs info.byteOffset (UInt8.ofNat (Nat.pow 2 info.bitOffset.toNat)) truth
  | _, _ => return outputs.splice info.byteOffset stop data

end PdoMap

end Fieldbus
