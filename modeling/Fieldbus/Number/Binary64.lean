import Fieldbus.Number.Format

/-!
# Binary64 numbers

A number is its 64-bit pattern.  The operations are exact integer arithmetic on
the units of the format followed by one rounding, so they are the operations of
the standard and can be evaluated in a proof.
-/

namespace Fieldbus

structure Binary64 where
  bits : UInt64
  deriving DecidableEq, Inhabited, Repr

namespace Binary64

def negative (x : Binary64) : Bool :=
  Nat.pow 2 63 ≤ x.bits.toNat

def magnitude (x : Binary64) : Nat :=
  x.bits.toNat % Nat.pow 2 63

def ofMagnitude (negative : Bool) (magnitude : Nat) : Binary64 :=
  ⟨UInt64.ofNat ((if negative then Nat.pow 2 63 else 0) + magnitude)⟩

def isNaN (x : Binary64) : Bool :=
  FloatFormat.binary64.infinity < x.magnitude

def isInfinite (x : Binary64) : Bool :=
  x.magnitude = FloatFormat.binary64.infinity

def isFinite (x : Binary64) : Bool :=
  x.magnitude < FloatFormat.binary64.infinity

def nan : Binary64 := ⟨0x7ff8000000000000⟩

def infinity (negative : Bool) : Binary64 :=
  ofMagnitude negative FloatFormat.binary64.infinity

def zero : Binary64 := ⟨0⟩

/-- The signed value of a finite number, in units of `2 ^ -1074`. -/
def units (x : Binary64) : Int :=
  if x.negative then -(FloatFormat.binary64.units x.magnitude : Int)
  else FloatFormat.binary64.units x.magnitude

/-- The number of units in one. -/
def one : Nat := Nat.pow 2 FloatFormat.binary64.unitShift

/-- The number nearest to `num / den` units. -/
def ofUnits (negative : Bool) (num den : Nat) : Binary64 :=
  ofMagnitude negative (FloatFormat.binary64.round num den)

/-- The finite number nearest to a number of units, in units; there is none beyond the
range. -/
def roundUnits? (value : Int) : Option Int :=
  let pattern := FloatFormat.binary64.nearest value.natAbs 1
  if pattern < FloatFormat.binary64.infinity then
    some (value.sign * FloatFormat.binary64.units pattern)
  else none

/-- The number nearest to the quotient of an integer by a number that is not zero. -/
def ofQuotient (num : Int) (den : Nat) : Binary64 :=
  ofUnits (num < 0) (num.natAbs * one) den

def neg (x : Binary64) : Binary64 :=
  ofMagnitude (!x.negative) x.magnitude

def add (x y : Binary64) : Binary64 :=
  if x.isNaN || y.isNaN then nan
  else if x.isInfinite then
    if y.isInfinite && x.negative != y.negative then nan else x
  else if y.isInfinite then y
  else
    let sum := x.units + y.units
    if sum = 0 then ofMagnitude (x.negative && y.negative) 0
    else ofUnits (sum < 0) sum.natAbs 1

def sub (x y : Binary64) : Binary64 :=
  x.add y.neg

def mul (x y : Binary64) : Binary64 :=
  let sign := x.negative != y.negative
  if x.isNaN || y.isNaN then nan
  else if x.isInfinite || y.isInfinite then
    if x.magnitude = 0 || y.magnitude = 0 then nan else infinity sign
  else ofUnits sign (x.units.natAbs * y.units.natAbs) one

def div (x y : Binary64) : Binary64 :=
  let sign := x.negative != y.negative
  if x.isNaN || y.isNaN then nan
  else if x.isInfinite then
    if y.isInfinite then nan else infinity sign
  else if y.isInfinite then ofMagnitude sign 0
  else if y.magnitude = 0 then
    if x.magnitude = 0 then nan else infinity sign
  else ofUnits sign (x.units.natAbs * one) y.units.natAbs

/-- A key that orders all numbers but NaN; both zeros have the key zero. -/
def key (x : Binary64) : Int :=
  if x.negative then -(x.magnitude : Int) else x.magnitude

/-- NaN is less than nothing and nothing is less than NaN. -/
def lt (x y : Binary64) : Bool :=
  !x.isNaN && !y.isNaN && x.key < y.key

def le (x y : Binary64) : Bool :=
  !x.isNaN && !y.isNaN && x.key ≤ y.key

/-- The number nearest to an integer, if it is finite. -/
def ofInt? (value : Int) : Option Binary64 :=
  let pattern := FloatFormat.binary64.nearest (value.natAbs * one) 1
  if pattern < FloatFormat.binary64.infinity then some (ofMagnitude (value < 0) pattern)
  else none

/-- The number nearest to a small natural number. -/
def ofNat (value : Nat) : Binary64 :=
  ofUnits false (value * one) 1

/-- The whole part of a finite number. -/
def truncate (x : Binary64) : Int :=
  x.units.tdiv one

/-- The number nearest to `digits * 10 ^ exponent`. -/
def ofDecimal (negative : Bool) (digits : Nat) (exponent : Int) : Binary64 :=
  let order := ((Nat.toDigits 10 digits).length : Int) + exponent
  if digits = 0 then ofMagnitude negative 0
  else if 400 < order then infinity negative
  else if order < -400 then ofMagnitude negative 0
  else if exponent < 0 then ofUnits negative (digits * one) (Nat.pow 10 exponent.natAbs)
  else ofUnits negative (digits * Nat.pow 10 exponent.toNat * one) 1

/-- The binary32 pattern nearest to a number, if the number does not grow to an
infinity.  Of a NaN the sign and the leading payload bits are kept. -/
def toBinary32? (x : Binary64) : Option Nat :=
  let sign := if x.negative then Nat.pow 2 31 else 0
  let format := FloatFormat.binary32
  if x.isNaN then
    some (sign + format.infinity + (x.magnitude % Nat.pow 2 52 / Nat.pow 2 29 ||| Nat.pow 2 22))
  else if x.isInfinite then some (sign + format.infinity)
  else
    let excess := FloatFormat.binary64.unitShift - format.unitShift
    let pattern := format.nearest x.units.natAbs (Nat.pow 2 excess)
    if pattern < format.infinity then some (sign + pattern) else none

/-- The number with a given binary32 pattern. -/
def ofBinary32 (pattern : Nat) : Binary64 :=
  let format := FloatFormat.binary32
  let sign : Bool := Nat.pow 2 31 ≤ pattern
  let magnitude := pattern % Nat.pow 2 31
  if format.infinity < magnitude then
    ofMagnitude sign
      (FloatFormat.binary64.infinity + (magnitude % Nat.pow 2 23 * Nat.pow 2 29 ||| Nat.pow 2 51))
  else if magnitude = format.infinity then infinity sign
  else
    let excess := FloatFormat.binary64.unitShift - format.unitShift
    ofUnits sign (format.units magnitude * Nat.pow 2 excess) 1

end Binary64

/-- A number as a caller may give it: whole or binary64. -/
inductive Number where
  | int (value : Int)
  | real (value : Binary64)
  deriving DecidableEq, Inhabited, Repr

end Fieldbus
