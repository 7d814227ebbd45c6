import Fieldbus.DataType
import Fieldbus.Text.Name
import Fieldbus.Text.Numeral

/-!
# Dictionary entries and objects

The address of an entry, its access rights, and what a slave's dictionary says
of its entries and objects.
-/

namespace Fieldbus

structure EntryIndex where
  index : Int
  subindex : Int
  deriving DecidableEq, Repr, Inhabited

/-- An address as it is printed and as a command line takes it. -/
def EntryIndex.text (entry : EntryIndex) : String :=
  "0x" ++ Numeral.hex 4 entry.index ++ ":" ++ Numeral.hex 2 entry.subindex

/-- An address that may lack its subindex. -/
structure EntryAddress where
  index : Int
  subindex : Option Int
  deriving DecidableEq, Repr, Inhabited

/-- The address with subindex 0 if it lacks one. -/
def EntryAddress.entry (address : EntryAddress) : EntryIndex :=
  ⟨address.index, address.subindex.getD 0⟩

inductive Access where
  | unknown | readOnly | writeOnly | readWrite
  deriving DecidableEq, Repr, Inhabited

namespace Access

def ofFlags (read write : Bool) : Access :=
  match read, write with
  | true, true => readWrite
  | true, false => readOnly
  | false, true => writeOnly
  | false, false => unknown

def text : Access → String
  | unknown => "unknown"
  | readOnly => "ro"
  | writeOnly => "wo"
  | readWrite => "rw"

def isReadable : Access → Bool
  | readOnly | readWrite => true
  | unknown | writeOnly => false

end Access

/-- The access rights of an entry in each state, and whether it can be mapped to
outputs and inputs. -/
structure EntryAccess where
  preOp : Access
  safeOp : Access
  op : Access
  rxMappable : Bool
  txMappable : Bool
  deriving DecidableEq, Repr, Inhabited

/-- Decode the access word of an entry description: read flags for the three
states from bit 0, write flags from bit 3, mapping flags from bit 6. -/
def EntryAccess.ofBits (bits : Int) : EntryAccess :=
  let flag (position : Nat) : Bool := bits / (Nat.pow 2 position : Nat) % 2 = 1
  { preOp := .ofFlags (flag 0) (flag 3)
    safeOp := .ofFlags (flag 1) (flag 4)
    op := .ofFlags (flag 2) (flag 5)
    rxMappable := flag 6
    txMappable := flag 7 }

/-- What the dictionary says of one entry.  An entry whose type code is not known
or whose length is zero stays listed but cannot be decoded. -/
structure EntryInfo where
  entry : EntryIndex
  dataType : Option DataType
  bitLength : Int
  access : EntryAccess
  name : ReportedName
  typeCode : Int
  deriving DecidableEq, Repr, Inhabited

namespace EntryInfo

def isDecodable (info : EntryInfo) : Bool :=
  info.dataType.isSome && 0 < info.bitLength

/-- Whether the entry can be decoded and can be read in some state. -/
def isReadable (info : EntryInfo) : Bool :=
  info.isDecodable &&
    (info.access.preOp.isReadable || info.access.safeOp.isReadable || info.access.op.isReadable)

end EntryInfo

/-- An object with its entries; the entry at place `k` has subindex `k`. -/
structure ObjectInfo where
  position : Nat
  index : Int
  objectCode : Int
  maxSubindex : Int
  name : ReportedName
  entries : List EntryInfo
  deriving DecidableEq, Repr, Inhabited

def ObjectInfo.entryAt? (object : ObjectInfo) (subindex : Int) : Option EntryInfo :=
  if 0 ≤ subindex then object.entries[subindex.toNat]? else none

end Fieldbus
