/-!
# Binary floating-point formats

A magnitude of a binary format is its bit pattern without the sign, read as a
number.  Every finite magnitude is a whole multiple of the smallest one, so
values are compared, added and rounded as whole numbers of that unit.
-/

namespace Fieldbus

/-- The whole number nearest to `num / den`.  A tie goes to the even neighbour. -/
def roundQuotient (num den : Nat) : Nat :=
  let whole := num / den
  let twice := 2 * (num % den)
  if twice < den then whole
  else if den < twice then whole + 1
  else whole + whole % 2

/-- The widths of the two fields of a binary interchange format. -/
structure FloatFormat where
  fractionBits : Nat
  exponentBits : Nat

namespace FloatFormat

def binary32 : FloatFormat := ⟨23, 8⟩

def binary64 : FloatFormat := ⟨52, 11⟩

/-- The unit of the format is `2 ^ -unitShift`. -/
def unitShift (format : FloatFormat) : Nat :=
  Nat.pow 2 (format.exponentBits - 1) - 2 + format.fractionBits

/-- The pattern of infinity; greater patterns are no numbers. -/
def infinity (format : FloatFormat) : Nat :=
  (Nat.pow 2 format.exponentBits - 1) * Nat.pow 2 format.fractionBits

/-- The value of a finite pattern in units of the format. -/
def units (format : FloatFormat) (pattern : Nat) : Nat :=
  let exponent := pattern / Nat.pow 2 format.fractionBits
  let fraction := pattern % Nat.pow 2 format.fractionBits
  if exponent = 0 then fraction
  else (Nat.pow 2 format.fractionBits + fraction) * Nat.pow 2 (exponent - 1)

/-- The pattern nearest to `num / den` units, ties to even, as if the exponent
had no upper end. -/
def nearest (format : FloatFormat) (num den : Nat) : Nat :=
  let exponent := (num / den).log2 - format.fractionBits
  exponent * Nat.pow 2 format.fractionBits + roundQuotient num (den * Nat.pow 2 exponent)

/-- The pattern nearest to `num / den` units, where a value beyond the greatest
finite one becomes infinity. -/
def round (format : FloatFormat) (num den : Nat) : Nat :=
  min (format.nearest num den) format.infinity

end FloatFormat

end Fieldbus
