import Fieldbus.Proofs.Number.Widening

/-!
# The range of a format

A quotient is rounded to a finite number if it lies below the midpoint of the greatest finite
number and the number that would come next.
-/

namespace Fieldbus

section Quotient

variable {num den half rest : Nat}

/-- Where a number that is given by its quotient and its rest stands to the midpoint before an even
multiple. -/
theorem lt_midpoint_iff (whole half : Nat) (small : rest < den) :
    2 * (whole * den + rest) + den < 4 * half * den ↔
      whole + 2 ≤ 2 * half ∨ whole + 1 = 2 * half ∧ 2 * rest < den := by
  have scaled : 4 * half * den = 2 * (2 * half * den) := by ring
  rw [scaled]
  rcases Nat.lt_trichotomy (whole + 1) (2 * half) with less | same | more
  · have below : (whole + 2) * den ≤ 2 * half * den := Nat.mul_le_mul_right den less
    rw [Nat.add_mul] at below
    omega
  · rw [← same, Nat.add_mul]
    omega
  · have above : 2 * half * den ≤ whole * den := Nat.mul_le_mul_right den (by omega)
    omega

/-- A quotient is rounded to less than an even number if it is less than the midpoint before that
number; the midpoint itself is rounded up. -/
theorem roundQuotient_lt_iff (positive : 0 < den) :
    roundQuotient num den < 2 * half ↔ 2 * num + den < 4 * half * den := by
  have small := Nat.mod_lt num positive
  have midpoint := lt_midpoint_iff (num / den) half small
  rw [Nat.div_add_mod'] at midpoint
  rw [midpoint, roundQuotient]
  rcases Nat.lt_trichotomy (2 * (num % den)) den with less | tie | more
  · rw [if_pos less]
    omega
  · rw [if_neg (by omega), if_neg (by omega)]
    omega
  · rw [if_neg (by omega), if_pos more]
    omega

theorem roundQuotient_bounds (num den : Nat) :
    num / den ≤ roundQuotient num den ∧ roundQuotient num den ≤ num / den + 1 := by
  rw [roundQuotient]
  split
  · omega
  · split
    · omega
    · omega

end Quotient

namespace FloatFormat

variable {den : Nat}

/-- How many bits a number has beyond those of a field. -/
theorem log2_sub_bounds (value bits : Nat) :
    value < 2 ^ (bits + 1 + (value.log2 - bits)) ∧
      (0 < value.log2 - bits → 2 ^ (bits + (value.log2 - bits)) ≤ value) := by
  constructor
  · calc value < 2 ^ (value.log2 + 1) := Nat.lt_log2_self
      _ ≤ 2 ^ (bits + 1 + (value.log2 - bits)) := Nat.pow_le_pow_right (by decide) (by omega)
  · intro beyond
    have nonzero : value ≠ 0 := by
      rintro rfl
      simp at beyond
    rw [show bits + (value.log2 - bits) = value.log2 by omega]
    exact Nat.log2_self_le nonzero

/-- A value is rounded to less than a power of two if it is less than the midpoint before that
power. -/
theorem nearest_lt_iff (format : FloatFormat) (num limit : Nat) (positive : 0 < den) :
    format.nearest num den < (limit + 2) * 2 ^ format.fractionBits ↔
      2 * num + 2 ^ limit * den < 2 ^ (format.fractionBits + limit + 2) * den := by
  obtain ⟨below, above⟩ := log2_sub_bounds (num / den) format.fractionBits
  have rounds : format.nearest num den =
      ((num / den).log2 - format.fractionBits) * 2 ^ format.fractionBits +
        roundQuotient num (den * 2 ^ ((num / den).log2 - format.fractionBits)) := rfl
  rw [rounds]
  generalize (num / den).log2 - format.fractionBits = exponent at *
  obtain ⟨low, high⟩ := roundQuotient_bounds num (den * 2 ^ exponent)
  rw [← Nat.div_div_eq_div_mul] at low high
  rcases Nat.lt_trichotomy exponent limit with less | rfl | more
  · have quotient : num / den / 2 ^ exponent < 2 ^ (format.fractionBits + 1) := by
      rw [Nat.div_lt_iff_lt_mul (Nat.two_pow_pos _), ← Nat.pow_add]
      exact below
    have fits : (exponent + 2) * 2 ^ format.fractionBits < (limit + 2) * 2 ^ format.fractionBits :=
      Nat.mul_lt_mul_of_pos_right (by omega) (Nat.two_pow_pos _)
    have small : num < 2 ^ (format.fractionBits + limit) * den := by
      rw [← Nat.div_lt_iff_lt_mul positive]
      exact lt_of_lt_of_le below (Nat.pow_le_pow_right (by decide) (by omega))
    have unit : 2 ^ limit * den ≤ 2 ^ (format.fractionBits + limit) * den :=
      Nat.mul_le_mul_right den (Nat.pow_le_pow_right (by decide) (by omega))
    rw [Nat.pow_succ] at quotient
    rw [Nat.add_mul] at fits
    rw [Nat.pow_add _ _ 2, Nat.mul_right_comm]
    omega
  · rw [Nat.add_mul, Nat.add_lt_add_iff_left, roundQuotient_lt_iff
      (Nat.mul_pos positive (Nat.two_pow_pos _))]
    have unit : den * 2 ^ exponent = 2 ^ exponent * den := Nat.mul_comm _ _
    have reach : 4 * 2 ^ format.fractionBits * (den * 2 ^ exponent) =
        2 ^ (format.fractionBits + exponent + 2) * den := by ring
    rw [reach, unit]
  · have quotient : 2 ^ format.fractionBits ≤ num / den / 2 ^ exponent := by
      rw [Nat.le_div_iff_mul_le (Nat.two_pow_pos _), ← Nat.pow_add]
      exact above (by omega)
    have exceeds : (limit + 1) * 2 ^ format.fractionBits ≤ exponent * 2 ^ format.fractionBits :=
      Nat.mul_le_mul_right _ more
    have great : 2 ^ (format.fractionBits + limit + 1) * den ≤ num := by
      rw [← Nat.le_div_iff_mul_le positive]
      exact le_trans (Nat.pow_le_pow_right (by decide) (by omega)) (above (by omega))
    have twice : 2 ^ (format.fractionBits + limit + 2) * den =
        2 * (2 ^ (format.fractionBits + limit + 1) * den) := by ring
    rw [Nat.add_mul] at exceeds ⊢
    omega

end FloatFormat

namespace Binary64

theorem one_eq : one = 2 ^ FloatFormat.binary64.unitShift := by
  unfold one
  simp only [Nat.pow_eq]

/-- The midpoint of the greatest finite number and the power of two after it. -/
def midpoint : Nat :=
  2 ^ 1024 - 2 ^ 970

theorem scaled_lt_iff (value shift low high : Nat) :
    2 * (value * 2 ^ shift) + 2 ^ (shift + low) < 2 ^ (shift + high) ↔
      2 * value + 2 ^ low < 2 ^ high := by
  have scaled : 2 * (value * 2 ^ shift) + 2 ^ (shift + low) =
      2 ^ shift * (2 * value + 2 ^ low) := by ring
  rw [scaled, Nat.pow_add 2 shift high]
  exact Nat.mul_lt_mul_left (Nat.two_pow_pos _)

/-- The integers from the midpoint on have no nearest finite number. -/
theorem ofInt?_eq_none_iff {value : Int} : ofInt? value = none ↔ midpoint ≤ value.natAbs := by
  have finite : FloatFormat.binary64.nearest (value.natAbs * one) 1 <
      FloatFormat.binary64.infinity ↔ 2 * value.natAbs + 2 ^ 971 < 2 ^ 1025 := by
    have top : FloatFormat.binary64.infinity =
        (FloatFormat.binary64.unitShift + 971 + 2) * 2 ^ FloatFormat.binary64.fractionBits := rfl
    have high : FloatFormat.binary64.fractionBits + (FloatFormat.binary64.unitShift + 971) + 2 =
        FloatFormat.binary64.unitShift + 1025 := rfl
    rw [top, FloatFormat.nearest_lt_iff _ _ _ Nat.one_pos, Nat.mul_one, Nat.mul_one, high, one_eq,
      scaled_lt_iff]
  rw [ofInt?, midpoint]
  split
  · rename_i inRange
    rw [finite] at inRange
    simp only [reduceCtorEq, false_iff, Nat.not_le]
    omega
  · rename_i beyond
    rw [finite] at beyond
    simp only [true_iff]
    omega

end Binary64

end Fieldbus
