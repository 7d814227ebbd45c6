import Fieldbus.Bytes
import Fieldbus.Fault
import Fieldbus.Text.Utf8

/-!
# Encoding of values

Values as bytes.  Numbers are stored least significant byte first.  Only truth
values have a bit offset; every other value starts at the first byte.
-/

namespace Fieldbus

inductive Scalar where
  | unsigned (width : Nat)
  | signed (width : Nat)
  | float32
  | float64
  deriving DecidableEq, Repr

namespace Scalar

def width : Scalar → Nat
  | unsigned width => width
  | signed width => width
  | float32 => 4
  | float64 => 8

end Scalar

/-- How values of a type are stored. -/
inductive Storage where
  | truth
  | text
  | raw
  | scalar (scalar : Scalar)
  deriving DecidableEq, Repr

/-- The storage of the types that have a codec. -/
def DataType.storage? : DataType → Option Storage
  | .bool => some .truth
  | .string => some .text
  | .octetString | .domain => some .raw
  | .byte | .u8 => some (.scalar (.unsigned 1))
  | .u16 => some (.scalar (.unsigned 2))
  | .u32 => some (.scalar (.unsigned 4))
  | .u64 => some (.scalar (.unsigned 8))
  | .i8 => some (.scalar (.signed 1))
  | .i16 => some (.scalar (.signed 2))
  | .i32 => some (.scalar (.signed 4))
  | .i64 => some (.scalar (.signed 8))
  | .f32 => some (.scalar .float32)
  | .f64 => some (.scalar .float64)
  | _ => none

namespace Scalar

/-- The number stored in bytes of the right width. -/
def decode (scalar : Scalar) (data : Bytes) : Payload :=
  match scalar with
  | unsigned _ => .int data.toNat
  | signed _ => .int data.toInt
  | float32 => .real (Binary64.ofBinary32 data.toNat)
  | float64 => .real ⟨UInt64.ofNat data.toNat⟩

/-- The binary64 number that a number payload stands for. -/
def real? : Payload → Option Binary64
  | .int value => Binary64.ofInt? value
  | .real value => some value
  | _ => none

/-- Store a number.  Floating-point types take integers too, integer types take
integers only; truth values are no numbers. -/
def encode (scalar : Scalar) (payload : Payload) : Except ValueObjection Bytes :=
  match scalar, payload with
  | unsigned width, .int value =>
      if 0 ≤ value ∧ value < (Nat.pow 256 width : Nat) then .ok (Bytes.ofNat width value.toNat)
      else .error .outOfRange
  | signed width, .int value =>
      let half : Int := (Nat.pow 256 width / 2 : Nat)
      if -half ≤ value ∧ value < half then .ok (Bytes.ofInt width value)
      else .error .outOfRange
  | unsigned _, .real _ => .error .needsInteger
  | signed _, .real _ => .error .needsInteger
  | float32, payload =>
      match payload with
      | .int _ | .real _ =>
          match (real? payload).bind Binary64.toBinary32? with
          | some pattern => .ok (Bytes.ofNat 4 pattern)
          | none => .error .outOfRange
      | _ => .error .needsNumber
  | float64, payload =>
      match payload with
      | .int _ | .real _ =>
          match real? payload with
          | some value => .ok (Bytes.ofNat 8 value.bits.toNat)
          | none => .error .outOfRange
      | _ => .error .needsNumber
  | _, _ => .error .needsNumber

end Scalar

namespace Value

/-- Decode the first bytes of `raw` as a value of `bitLength` bits.

An empty buffer is refused first, then an unsupported type, then a length that is
not positive or, but for truth values, no whole number of bytes, then a short
buffer, and last a bit offset or width that the type does not have. -/
def decode (type : Option DataType) (bitLength : Int) (raw : Bytes) (bitOffset : Int) :
    Except CodecFault Value :=
  if raw.isEmpty then .error .emptyBuffer
  else
    match type.bind fun known => known.storage?.map (known, ·) with
    | none => .error (.unsupportedType (.inl type) .unknown)
    | some (known, storage) =>
        let size := byteCount bitLength
        let data : Bytes := raw.take size.toNat
        if bitLength ≤ 0 then .error (.unsupportedType (.inl type) .zeroLength)
        else if storage ≠ .truth ∧ bitLength % 8 ≠ 0 then
          .error (.unsupportedType (.inl type) (.unaligned bitLength))
        else if (raw.length : Int) < size then .error (.bufferTooSmall size raw.length)
        else
          match storage with
          | .truth =>
              if 0 ≤ bitOffset ∧ bitOffset ≤ 7 then
                .ok ⟨known, .bool (data.toNat / Nat.pow 2 bitOffset.toNat % 2 = 1)⟩
              else .error (.unsupportedType (.inl type) (.bitOffset bitOffset))
          | .text => .ok ⟨known, .text (Text.ofChars (Utf8.decodeLossy data))⟩
          | .raw => .ok ⟨known, .bytes data⟩
          | .scalar scalar =>
              if (scalar.width : Int) ≠ size then
                .error (.unsupportedType (.inl type) (.width bitLength))
              else .ok ⟨known, scalar.decode data⟩

/-- Encode a value.  A truth value becomes one byte with the bit at the offset set
or cleared.  A text with an unpaired surrogate has no encoding. -/
def encode (value : Value) (bitOffset : Int) : Except Fault Bytes :=
  let refuse (objection : ValueObjection) : Except Fault Bytes :=
    .error (.codec (.unsupportedValue value objection))
  match value.dataType.storage? with
  | none => refuse .noEncoding
  | some .truth =>
      match value.payload with
      | .bool truth =>
          if 0 ≤ bitOffset ∧ bitOffset ≤ 7 then
            .ok [UInt8.ofNat (if truth then Nat.pow 2 bitOffset.toNat else 0)]
          else refuse (.bitOffset bitOffset)
      | _ => refuse .needsBool
  | some .text =>
      match value.payload with
      | .text text =>
          match Utf8.encode? text with
          | some data => .ok data
          | none => .error (.accident .encoding)
      | _ => refuse .needsText
  | some .raw =>
      match value.payload with
      | .bytes content | .buffer content => .ok content
      | _ => refuse .needsBytes
  | some (.scalar scalar) =>
      match scalar.encode value.payload with
      | .ok data => .ok data
      | .error objection => refuse objection

end Value

end Fieldbus
