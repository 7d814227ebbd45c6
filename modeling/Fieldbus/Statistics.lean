import Fieldbus.Fault
import Fieldbus.RunSort

/-!
# Statistics of samples

The least and the greatest sample, the mean and the median.  The mean rounds the
exact sum once and divides it.
-/

namespace Fieldbus

structure Statistics where
  min : Binary64
  max : Binary64
  mean : Binary64
  median : Binary64
  deriving DecidableEq, Repr, Inhabited

namespace Statistics

/-- The first sample that no later one is below. -/
def least (first : Binary64) (rest : List Binary64) : Binary64 :=
  rest.foldl (fun best sample => if sample.lt best then sample else best) first

/-- The first sample that no later one is above. -/
def greatest (first : Binary64) (rest : List Binary64) : Binary64 :=
  rest.foldl (fun best sample => if best.lt sample then sample else best) first

/-- Add a number to partial sums, least first, none of which overlap.  Each step rounds
a sum and keeps what the rounding lost; there is no result if one exceeds the range. -/
def addPartial? : (partials : List Int) → Int → Option (List Int)
  | [], amount => some (if amount = 0 then [] else [amount])
  | lowest :: rest, amount => do
      let exact := lowest + amount
      let rounded ← Binary64.roundUnits? exact
      let sums ← addPartial? rest rounded
      return if rounded = exact then sums else (exact - rounded) :: sums

/-- The partial sums, in units, of the samples after the last one that is not finite. -/
def sumFinite : (partials : List Int) → List Binary64 → Except Accident (List Int)
  | partials, [] => .ok partials
  | partials, sample :: rest =>
      if sample.isFinite then
        match addPartial? partials sample.units with
        | some partials => sumFinite partials rest
        | none => .error .overflow
      else sumFinite [] rest

/-- The sum of samples.  Opposite infinities have no sum; otherwise an infinity or
a NaN among the samples is the sum. -/
def sum (samples : List Binary64) : Except Accident Binary64 :=
  match sumFinite [] samples with
  | .error accident => .error accident
  | .ok partials =>
      let total := partials.foldr (· + ·) 0
      let infinite := samples.filter Binary64.isInfinite
      if infinite.any Binary64.negative && infinite.any (!·.negative) then .error .value
      else if samples.any Binary64.isNaN then .ok Binary64.nan
      else match infinite with
        | sample :: _ => .ok sample
        | [] => .ok (Binary64.ofUnits (total < 0) total.natAbs 1)

/-- Samples in ascending order; equal ones keep their order. -/
def sorted (samples : List Binary64) : List Binary64 :=
  RunSort.sort Binary64.lt samples

/-- The middle sample, or the half of the sum of the two middle ones. -/
def middle (samples : List Binary64) : Binary64 :=
  let ordered := sorted samples
  let half := ordered.length / 2
  if ordered.length % 2 = 1 then ordered[half]?.getD Binary64.nan
  else
    let lower := ordered[half - 1]?.getD Binary64.nan
    let upper := ordered[half]?.getD Binary64.nan
    (lower.add upper).div (Binary64.ofNat 2)

/-- The statistics of samples, if there are any. -/
def of (samples : List Binary64) : Except Accident (Option Statistics) :=
  match samples with
  | [] => .ok none
  | first :: rest => do
      let total ← sum samples
      return some {
        min := least first rest
        max := greatest first rest
        mean := total.div (Binary64.ofNat samples.length)
        median := middle samples }

end Statistics

end Fieldbus
