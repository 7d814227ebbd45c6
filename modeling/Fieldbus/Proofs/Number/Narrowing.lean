import Fieldbus.Proofs.Number.Nearest

/-!
# Narrowing

A finite binary64 number is narrowed to the nearest finite binary32 number of its sign, and to the
one with an even pattern if two are equally near.  From the midpoint between the greatest finite
binary32 number and the next power of two on, there is none.
-/

namespace Fieldbus

open FloatFormat

def signed (negative : Bool) (value : Nat) : Int :=
  if negative then -value else value

section Signs

variable {first second : Bool} (near far : Nat)

theorem distance_signed (negative : Bool) :
    distance (signed negative near) (signed negative far) = distance near far := by
  cases negative with
  | true =>
      simp only [distance, signed, if_true]
      omega
  | false => simp only [distance, signed, Bool.false_eq_true, if_false]

theorem distance_signed_of_ne (different : first ≠ second) :
    distance (signed first near) (signed second far) = near + far := by
  cases first <;> cases second <;>
    simp only [distance, signed, Bool.false_eq_true, if_true, if_false, ne_eq, not_true] at * <;>
    omega

variable {near far} {number : Nat}
  (least : distance number near ≤ distance number (0 : Nat))

include least

/-- What lies on the other side of zero is not nearer than what is as near as zero. -/
theorem distance_le_add (far : Nat) : distance number near ≤ number + far := by
  simp only [distance] at least ⊢
  omega

theorem distance_zero_of_tie (tie : number + far = distance number near) :
    distance number (0 : Nat) = distance number near := by
  simp only [distance] at least tie ⊢
  omega

end Signs

namespace Binary32

def IsNumber (pattern : Nat) : Prop :=
  pattern % 2 ^ 31 ≤ binary32.infinity

def IsFinite (pattern : Nat) : Prop :=
  pattern < 2 ^ 32 ∧ pattern % 2 ^ 31 < binary32.infinity

/-- A unit of binary32, in units of binary64: these are `2 ^ -149` and `2 ^ -1074`. -/
def unit : Nat :=
  2 ^ (binary64.unitShift - binary32.unitShift)

theorem unit_pos : 0 < unit :=
  Nat.two_pow_pos _

theorem one_eq_mul_unit : Binary64.one = 2 ^ 149 * unit := by
  have shifts : binary64.unitShift = 149 + (binary64.unitShift - binary32.unitShift) := rfl
  rw [Binary64.one_eq, shifts, Nat.pow_add, unit]

/-- The signed value of a finite pattern, in units of binary64. -/
def units (pattern : Nat) : Int :=
  signed (2 ^ 31 ≤ pattern) (binary32.units (pattern % 2 ^ 31) * unit)

/-- The finite pattern has the sign of a number and is nearest to it: no other finite pattern is
nearer, and the pattern is even if another one is as near. -/
structure IsNearest (number : Binary64) (pattern : Nat) : Prop where
  finite : IsFinite pattern
  sign : 2 ^ 31 ≤ pattern ↔ number.negative = true
  least : ∀ other, IsFinite other →
    distance number.units (units pattern) ≤ distance number.units (units other)
  even : ∀ other, IsFinite other → other ≠ pattern →
    distance number.units (units other) = distance number.units (units pattern) → pattern % 2 = 0

/-- The midpoint of the greatest finite binary32 number and the power of two after it, in units of
binary64. -/
def midpoint : Nat :=
  (2 ^ 128 - 2 ^ 103) * Binary64.one

end Binary32

namespace Binary64

variable {number : Binary64} {pattern : Nat}

theorem toBinary32?_of_finite (finite : number.isFinite = true) :
    number.toBinary32? =
      if binary32.nearest (binary64.units number.magnitude) Binary32.unit < binary32.infinity then
        some ((if number.negative then 2 ^ 31 else 0) +
          binary32.nearest (binary64.units number.magnitude) Binary32.unit)
      else none := by
  have below : number.magnitude < binary64.infinity := by simpa [isFinite] using finite
  have notNaN : ¬ number.isNaN := by
    rw [isNaN, decide_eq_true_iff]
    omega
  have notInfinite : ¬ number.isInfinite := by
    rw [isInfinite, decide_eq_true_iff]
    omega
  rw [toBinary32?]
  simp only [Nat.pow_eq]
  rw [if_neg notNaN, if_neg notInfinite, natAbs_units, ← Binary32.unit]

/-- The numbers from the midpoint on have no nearest finite binary32 number.  All bounds are
multiples of half the distance of the greatest binary32 numbers. -/
theorem toBinary32?_eq_none_iff (finite : number.isFinite = true) :
    number.toBinary32? = none ↔ Binary32.midpoint ≤ number.units.natAbs := by
  have inRange : binary32.nearest number.units.natAbs Binary32.unit < binary32.infinity ↔
      2 * number.units.natAbs + 2 * (2 ^ 252 * Binary32.unit) <
        2 ^ 26 * (2 ^ 252 * Binary32.unit) := by
    have top : binary32.infinity = (1 + 252 + 2) * 2 ^ binary32.fractionBits := rfl
    have bits : binary32.fractionBits + (1 + 252) + 2 = 26 + 252 := rfl
    rw [top, nearest_lt_iff _ _ _ Binary32.unit_pos, bits, Nat.pow_add, Nat.pow_add,
      Nat.mul_assoc, Nat.mul_assoc, Nat.pow_one]
  have middle : Binary32.midpoint = (2 ^ 25 - 1) * (2 ^ 252 * Binary32.unit) := by
    have spread : 2 ^ 128 - 2 ^ 103 = (2 ^ 25 - 1) * 2 ^ 103 := by decide
    rw [Binary32.midpoint, Binary32.one_eq_mul_unit, spread, Nat.mul_assoc,
      ← Nat.mul_assoc (2 ^ 103), ← Nat.pow_add]
  rw [toBinary32?_of_finite finite, ← natAbs_units, middle]
  generalize 2 ^ 252 * Binary32.unit = half at inRange
  split
  · rename_i below
    rw [inRange] at below
    simp only [reduceCtorEq, false_iff, Nat.not_le]
    omega
  · rename_i beyond
    rw [inRange] at beyond
    simp only [true_iff]
    omega

/-- A finite number that is not beyond the range is narrowed to the nearest pattern. -/
theorem isNearest_of_toBinary32? (finite : number.isFinite = true)
    (narrowed : number.toBinary32? = some pattern) : Binary32.IsNearest number pattern := by
  rw [toBinary32?_of_finite finite] at narrowed
  split at narrowed
  · rename_i below
    have fraction : 0 < binary32.fractionBits := by decide
    have found := isNearest_nearest fraction (binary64.units number.magnitude) Binary32.unit_pos
    generalize binary32.nearest (binary64.units number.magnitude) Binary32.unit = magnitude at *
    rw [infinity_binary32] at below
    have fields : pattern < 2 ^ 32 ∧ pattern % 2 ^ 31 = magnitude ∧ pattern % 2 = magnitude % 2 ∧
        decide (2 ^ 31 ≤ pattern) = number.negative := by
      cases sign : number.negative <;> rw [sign] at narrowed <;> cases narrowed <;>
        simp only [Bool.false_eq_true, if_true, if_false, decide_eq_true_eq,
          decide_eq_false_iff_not] <;> omega
    obtain ⟨small, magnitudeEq, parity, sign⟩ := fields
    have value : number.units = signed number.negative (binary64.units number.magnitude) := rfl
    have patternValue : Binary32.units pattern =
        signed number.negative (binary32.units magnitude * Binary32.unit) := by
      rw [Binary32.units, magnitudeEq, sign]
    have zero : binary32.units 0 * Binary32.unit = 0 := by
      rw [show binary32.units 0 = 0 from rfl, Nat.zero_mul]
    have least := found.least 0
    rw [zero] at least
    refine ⟨⟨small, by rw [magnitudeEq, infinity_binary32]; exact below⟩, ?_, ?_, ?_⟩
    · rw [← sign, decide_eq_true_iff]
    · intro other _
      rw [value, patternValue, distance_signed, Binary32.units]
      by_cases same : number.negative = decide (2 ^ 31 ≤ other)
      · rw [← same, distance_signed]
        exact found.least _
      · rw [distance_signed_of_ne _ _ same]
        exact distance_le_add least _
    · intro other otherFinite different tie
      rw [parity]
      rw [value, patternValue, distance_signed, Binary32.units] at tie
      by_cases same : number.negative = decide (2 ^ 31 ≤ other)
      · rw [← same, distance_signed] at tie
        refine found.even _ ?_ tie
        intro sameMagnitude
        apply different
        rw [← sign_add_magnitude otherFinite.1, ← sign_add_magnitude small, ← same, sign,
          sameMagnitude, magnitudeEq]
      · rw [distance_signed_of_ne _ _ same] at tie
        by_cases isZero : 0 = magnitude
        · rw [← isZero]
        · refine found.even 0 isZero ?_
          rw [zero]
          exact distance_zero_of_tie least tie
  · cases narrowed

theorem exact_of_ofBinary32 (finite : Binary32.IsFinite pattern) :
    (ofBinary32 pattern).isFinite = true ∧
      (ofBinary32 pattern).negative = decide (2 ^ 31 ≤ pattern) ∧
      (ofBinary32 pattern).units = Binary32.units pattern := by
  obtain ⟨sign, below, value⟩ := units_ofBinary32 finite.2
  rw [← Binary32.unit] at value
  refine ⟨by simpa [isFinite] using below, sign, ?_⟩
  rw [Binary64.units, sign, value]
  rfl

end Binary64

end Fieldbus
