import Fieldbus.Number.Binary64

/-!
# Decimal text of binary64 numbers

`shortest` writes the fewest digits that read back as the same number;
`fixed` writes a given number of places, rounded to nearest with ties to even.
-/

namespace Fieldbus

namespace Decimal

/-- A positive decimal `0.d₁d₂… * 10 ^ point` given by its digits. -/
structure Digits where
  digits : List Char
  point : Int

/-- The power of ten just above `num / den`: the least `k` with `num / den < 10 ^ k`,
found among the neighbours of an estimate from the binary logarithm. -/
def order (num den : Nat) : Int :=
  let estimate := (((num.log2 : Int) - den.log2) * 30103) / 100000
  let below (k : Int) : Bool :=
    if k < 0 then num * Nat.pow 10 k.natAbs < den else num < den * Nat.pow 10 k.toNat
  (([-1, 0, 1, 2].map (estimate + ·)).find? below).getD (estimate + 3)

/-- `num / den * 10 ^ k` as a quotient. -/
def scale (num den : Nat) (k : Int) : Nat × Nat :=
  if k < 0 then (num, den * Nat.pow 10 k.natAbs) else (num * Nat.pow 10 k.toNat, den)

/-- Whether `digits * 10 ^ -k` is read as the magnitude `pattern`. -/
def readsBack (pattern digits : Nat) (k : Int) : Bool :=
  let (num, den) := scale (digits * Binary64.one) 1 (-k)
  FloatFormat.binary64.nearest num den = pattern

/-- The neighbour of the value on the grid of `10 ^ -k` that reads back as
`pattern`; of two the nearer, and the even one in a tie. -/
def neighbour? (pattern : Nat) (num den : Nat) (k : Int) : Option Nat :=
  let (num, den) := scale num den k
  let lower := num / den
  let twice := 2 * (num % den)
  match readsBack pattern lower k, readsBack pattern (lower + 1) k with
  | true, true =>
      some (if twice < den || (twice = den && lower % 2 = 0) then lower else lower + 1)
  | true, false => some lower
  | false, true => some (lower + 1)
  | false, false => none

/-- The fewest digits that read back as a positive finite magnitude. -/
def shortestDigits (pattern : Nat) : Digits :=
  let num := FloatFormat.binary64.units pattern
  let den := Binary64.one
  let top := order num den
  let candidate (count : Nat) : Option (Nat × Int) :=
    let k := (count : Int) - top
    (neighbour? pattern num den k).map fun digits => (digits, k)
  match (List.range 18).findSome? candidate with
  | some (digits, k) =>
      let written := Nat.toDigits 10 digits
      ⟨(written.reverse.dropWhile (· = '0')).reverse, (written.length : Int) - k⟩
  | none => ⟨[], 0⟩

/-- An exponent with its sign and at least two digits. -/
def exponentText (exponent : Int) : String :=
  let digits := Nat.toDigits 10 exponent.natAbs
  String.ofList ((if exponent < 0 then '-' else '+') ::
    (List.replicate (2 - digits.length) '0' ++ digits))

/-- Positional from `10 ^ -4` up to `10 ^ 16`, with at least one place; otherwise
with one digit before the point and an exponent. -/
def Digits.text (decimal : Digits) : String :=
  let count := decimal.digits.length
  if -4 < decimal.point ∧ decimal.point ≤ 16 then
    if decimal.point ≤ 0 then
      String.ofList ('0' :: '.' :: (List.replicate decimal.point.natAbs '0' ++ decimal.digits))
    else
      let whole := decimal.point.toNat
      let places := decimal.digits.drop whole
      String.ofList (decimal.digits.take whole ++ List.replicate (whole - count) '0' ++
        '.' :: (if places.isEmpty then ['0'] else places))
  else
    let places := decimal.digits.drop 1
    String.ofList (decimal.digits.take 1 ++ (if places.isEmpty then [] else '.' :: places)) ++
      "e" ++ exponentText (decimal.point - 1)

def sign (x : Binary64) : String :=
  if x.negative then "-" else ""

/-- The fewest digits that read back as `x`. -/
def shortest (x : Binary64) : String :=
  if x.isNaN then "nan"
  else if x.isInfinite then sign x ++ "inf"
  else if x.magnitude = 0 then sign x ++ "0.0"
  else sign x ++ (shortestDigits x.magnitude).text

/-- `x` with the given number of places, at least one. -/
def fixed (places : Nat) (x : Binary64) : String :=
  if x.isNaN then "nan"
  else if x.isInfinite then sign x ++ "inf"
  else
    let scaled := roundQuotient (x.units.natAbs * Nat.pow 10 places) Binary64.one
    let digits := Nat.toDigits 10 scaled
    let padded := List.replicate (places + 1 - digits.length) '0' ++ digits
    let whole := padded.length - places
    sign x ++ String.ofList (padded.take whole ++ '.' :: padded.drop whole)

end Decimal

end Fieldbus
