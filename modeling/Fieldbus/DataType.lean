/-!
# Basic data types

The basic data types of the object dictionary with their codes.
-/

namespace Fieldbus

inductive DataType where
  | bool | i8 | i16 | i32 | u8 | u16 | u32 | f32 | string | octetString | unicodeString
  | timeOfDay | timeDifference | domain | i24 | f64 | i40 | i48 | i56 | i64 | u24 | u40
  | u48 | u56 | u64 | byte | word | dword | bit1 | bit2 | bit3 | bit4 | bit5 | bit6
  | bit7 | bit8
  deriving DecidableEq, Repr, Inhabited

namespace DataType

def code : DataType → Nat
  | bool => 0x0001
  | i8 => 0x0002
  | i16 => 0x0003
  | i32 => 0x0004
  | u8 => 0x0005
  | u16 => 0x0006
  | u32 => 0x0007
  | f32 => 0x0008
  | string => 0x0009
  | octetString => 0x000a
  | unicodeString => 0x000b
  | timeOfDay => 0x000c
  | timeDifference => 0x000d
  | domain => 0x000f
  | i24 => 0x0010
  | f64 => 0x0011
  | i40 => 0x0012
  | i48 => 0x0013
  | i56 => 0x0014
  | i64 => 0x0015
  | u24 => 0x0016
  | u40 => 0x0018
  | u48 => 0x0019
  | u56 => 0x001a
  | u64 => 0x001b
  | byte => 0x001e
  | word => 0x001f
  | dword => 0x0020
  | bit1 => 0x0030
  | bit2 => 0x0031
  | bit3 => 0x0032
  | bit4 => 0x0033
  | bit5 => 0x0034
  | bit6 => 0x0035
  | bit7 => 0x0036
  | bit8 => 0x0037

def name : DataType → String
  | bool => "BOOL"
  | i8 => "I8"
  | i16 => "I16"
  | i32 => "I32"
  | u8 => "U8"
  | u16 => "U16"
  | u32 => "U32"
  | f32 => "F32"
  | string => "STRING"
  | octetString => "OCTET_STRING"
  | unicodeString => "UNICODE_STRING"
  | timeOfDay => "TIME_OF_DAY"
  | timeDifference => "TIME_DIFFERENCE"
  | domain => "DOMAIN"
  | i24 => "I24"
  | f64 => "F64"
  | i40 => "I40"
  | i48 => "I48"
  | i56 => "I56"
  | i64 => "I64"
  | u24 => "U24"
  | u40 => "U40"
  | u48 => "U48"
  | u56 => "U56"
  | u64 => "U64"
  | byte => "BYTE"
  | word => "WORD"
  | dword => "DWORD"
  | bit1 => "BIT1"
  | bit2 => "BIT2"
  | bit3 => "BIT3"
  | bit4 => "BIT4"
  | bit5 => "BIT5"
  | bit6 => "BIT6"
  | bit7 => "BIT7"
  | bit8 => "BIT8"

/-- All data types in the order of their codes. -/
def all : List DataType := [
    .bool, .i8, .i16, .i32, .u8, .u16, .u32, .f32, .string, .octetString, .unicodeString,
    .timeOfDay, .timeDifference, .domain, .i24, .f64, .i40, .i48, .i56, .i64, .u24, .u40,
    .u48, .u56, .u64, .byte, .word, .dword, .bit1, .bit2, .bit3, .bit4, .bit5, .bit6,
    .bit7, .bit8]

/-- The data type with a given code. -/
def ofCode? (code : Int) : Option DataType :=
  all.find? fun type => (type.code : Int) = code

/-- The data type with a given name. -/
def ofName? (name : String) : Option DataType :=
  all.find? fun type => type.name = name

end DataType

end Fieldbus
