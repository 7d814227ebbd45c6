import Fieldbus.Pdo.Values

/-!
# The wording of faults

A fault is worded as it is raised, and a text may be limited in what it can hold: whole numbers
of so many decimal digits, and payloads of so many levels.  A fault that cannot be worded does
not surface; an accident takes its place.  Numbers in hexadecimal have no limit.
-/

namespace Fieldbus

/-- What a text can hold, where it is limited. -/
structure WritingLimits where
  digits : Option Nat
  levels : Option Nat
  deriving Repr, Inhabited

namespace WritingLimits

def unlimited : WritingLimits := ⟨none, none⟩

/-- The limits that hold unless somebody lifts them.  How many levels there is room for is up to
the caller. -/
def standard (levels : Nat) : WritingLimits := ⟨some Numeral.maxDecimalDigits, some levels⟩

/-- A whole number can be written. -/
def allows (limits : WritingLimits) (value : Int) : Bool :=
  limits.digits.all fun digits => value.natAbs < Nat.pow 10 digits

/-- So many levels can be open at once. -/
def reaches (limits : WritingLimits) (level : Nat) : Bool :=
  limits.levels.all fun levels => level ≤ levels

/-- What is in the way of a number. -/
def number? (limits : WritingLimits) (value : Int) : Option Accident :=
  if limits.allows value then none else some .value

mutual

/-- What is in the way of a payload at a level: the first of its parts that cannot be written. -/
def payload? (limits : WritingLimits) (level : Nat) (payload : Payload) : Option Accident :=
  if limits.reaches level then
    match payload with
    | .int value => limits.number? value
    | .list items => items? limits (level + 1) items
    | .record fields => fields? limits (level + 1) fields
    | _ => none
  else some .depth

def items? (limits : WritingLimits) (level : Nat) : List Payload → Option Accident
  | [] => none
  | item :: rest => (payload? limits level item).orElse fun _ => items? limits level rest

def fields? (limits : WritingLimits) (level : Nat) : List (Text × Payload) → Option Accident
  | [] => none
  | (_, value) :: rest => (payload? limits level value).orElse fun _ => fields? limits level rest

end

end WritingLimits

/-- The numbers that an objection writes in decimal. -/
def TypeObjection.numbers : TypeObjection → List Int
  | unaligned bitLength | width bitLength => [bitLength]
  | bitOffset offset => [offset]
  | entry _ slave => [slave]
  | unknown | zeroLength => []

def ValueObjection.numbers : ValueObjection → List Int
  | bitOffset offset => [offset]
  | _ => []

namespace CodecFault

/-- The numbers that a fault of the codec writes in decimal, but for those in a payload. -/
def numbers : CodecFault → List Int
  | emptyBuffer => []
  | bufferTooSmall expected actual => [expected, actual]
  | unsupportedType (.inr code) objection => code :: objection.numbers
  | unsupportedType (.inl _) objection => objection.numbers
  | unsupportedValue _ objection => objection.numbers

end CodecFault

def Mismatch.numbers : Mismatch → List Int
  | type _ _ => []
  | size encoded held => [encoded, held]
  | outside stop held => [stop, held]

namespace Fault

/-- The numbers that a fault writes in decimal, but for those in a payload. -/
def numbers : Fault → List Int
  | configuration (.discovery slave _) => [slave]
  | sdoRead slave _ _ | sdoWrite slave _ _ | objectList slave _ => [slave]
  | objectDescription slave position _ _ | entryList slave position _ _ => [position, slave]
  | unexpectedData slave _ expected actual => [slave, expected, actual]
  | codec cause => cause.numbers
  | slaveNotFound slave | indexNotFound slave _ | entryNotFound slave _ => [slave]
  | wrongDirection slave _ _ | alState slave _ _ => [slave]
  | valueMismatch slave _ mismatch => slave :: mismatch.numbers
  | _ => []

/-- The payload that a fault shows. -/
def payload? : Fault → Option Payload
  | codec (.unsupportedValue value _) => some value.payload
  | _ => none

/-- What is in the way of wording a fault. -/
def obstacle? (limits : WritingLimits) (fault : Fault) : Option Accident :=
  (fault.numbers.findSome? limits.number?).orElse fun _ =>
    fault.payload?.bind (limits.payload? 0)

/-- What surfaces of a fault. -/
def raised (limits : WritingLimits) (fault : Fault) : Fault :=
  match fault.obstacle? limits with
  | some cause => accident cause
  | none => fault

end Fault

namespace Value

/-- Decode, and word the fault if that fails. -/
def decodeWithin (limits : WritingLimits) (type : Option DataType) (bitLength : Int) (raw : Bytes)
    (bitOffset : Int) : Except Fault Value :=
  (decode type bitLength raw bitOffset).mapError fun cause => (Fault.codec cause).raised limits

/-- Encode, and word the fault if that fails. -/
def encodeWithin (limits : WritingLimits) (value : Value) (bitOffset : Int) : Except Fault Bytes :=
  (value.encode bitOffset).mapError (Fault.raised limits)

end Value

/-- What is in the way of a warning about an entry without a value. -/
def Decoded.obstacle? (limits : WritingLimits) (slave : Int) : Decoded → Option Accident
  | (_, .ok _) => none
  | (_, .error cause) =>
      ((Fault.codec cause).obstacle? limits).orElse fun _ => limits.number? slave

namespace PdoMap

/-- Read all values and word the warnings.  Nothing is returned if one of them cannot be worded. -/
def readWithin (limits : WritingLimits) (slave : Int) (map : PdoMap) (inputs outputs : Bytes) :
    Except Accident (List (EntryIndex × Value) × List Notice) :=
  match (map.decodeAll inputs outputs).findSome? (Decoded.obstacle? limits slave) with
  | some cause => .error cause
  | none => .ok (map.readValues slave inputs outputs)

/-- Write a value, and word the fault if that fails. -/
def writeWithin (limits : WritingLimits) (slave : Int) (map : PdoMap) (outputs : Bytes)
    (entry : EntryIndex) (value : Value) : Except Fault Bytes :=
  (map.write slave outputs entry value).mapError (Fault.raised limits)

end PdoMap

end Fieldbus
