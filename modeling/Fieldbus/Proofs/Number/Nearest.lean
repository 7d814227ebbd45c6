import Fieldbus.Proofs.Number.Rounding

/-!
# The nearest number of a format

Rounding finds the pattern whose value is nearest to a quotient.  Where two patterns are equally
near, it finds the even one.
-/

namespace Fieldbus

def distance (first second : Int) : Nat :=
  (first - second).natAbs

/-- A multiple that is nearest to a number: none is nearer, and the factor is even if another one
is as near. -/
structure IsNearestMultiple (num den factor : Nat) : Prop where
  least : ∀ other : Nat, distance num (factor * den : Nat) ≤ distance num (other * den : Nat)
  even : ∀ other : Nat, other ≠ factor →
    distance num (other * den : Nat) = distance num (factor * den : Nat) → factor % 2 = 0

section Quotient

variable {num den : Nat}

/-- Where the multiples of a number lie that are none of the two next to a point. -/
theorem multiple_cases (whole other den : Nat) :
    other * den + den ≤ whole * den ∨ other = whole ∨ other = whole + 1 ∨
      whole * den + 2 * den ≤ other * den := by
  rcases Nat.lt_trichotomy other whole with less | same | more
  · left
    calc other * den + den = (other + 1) * den := by ring
      _ ≤ whole * den := Nat.mul_le_mul_right den less
  · exact Or.inr (Or.inl same)
  · rcases Nat.lt_or_eq_of_le more with beyond | next
    · right; right; right
      calc whole * den + 2 * den = (whole + 2) * den := by ring
        _ ≤ other * den := Nat.mul_le_mul_right den beyond
    · exact Or.inr (Or.inr (Or.inl next.symm))

theorem isNearestMultiple_roundQuotient (num : Nat) (positive : 0 < den) :
    IsNearestMultiple num den (roundQuotient num den) := by
  have split := Nat.div_add_mod' num den
  have small := Nat.mod_lt num positive
  have next : (num / den + 1) * den = num / den * den + den := by ring
  have parity := Nat.mod_two_eq_zero_or_one (num / den)
  have rounded : roundQuotient num den = num / den ∧ 2 * (num % den) ≤ den ∧
        (2 * (num % den) = den → num / den % 2 = 0) ∨
      roundQuotient num den = num / den + 1 ∧ den ≤ 2 * (num % den) ∧
        (2 * (num % den) = den → num / den % 2 = 1) := by
    rw [roundQuotient]
    split
    · omega
    · split
      · omega
      · rcases parity with even | odd <;> omega
  constructor
  · intro other
    have place := multiple_cases (num / den) other den
    simp only [distance]
    rcases rounded with ⟨same, below, _⟩ | ⟨same, above, _⟩
    · rw [same]
      rcases place with less | rfl | rfl | more <;> omega
    · rw [same, next]
      rcases place with less | rfl | rfl | more <;> omega
  · intro other different tie
    have place := multiple_cases (num / den) other den
    simp only [distance] at tie
    rcases rounded with ⟨same, below, even⟩ | ⟨same, above, odd⟩
    · rw [same] at tie different ⊢
      rcases place with less | rfl | rfl | more <;> omega
    · rw [same] at different ⊢
      rw [same, next] at tie
      rcases place with less | rfl | rfl | more <;> omega

end Quotient

namespace FloatFormat

variable {format : FloatFormat} {significand exponent num den : Nat}

/-- The value of a pattern whose significand may have been rounded up to the next power of two. -/
theorem units_of_rounded (small : significand ≤ 2 ^ (format.fractionBits + 1))
    (leading : exponent = 0 ∨ 2 ^ format.fractionBits ≤ significand) :
    format.units (exponent * 2 ^ format.fractionBits + significand) =
      significand * 2 ^ exponent := by
  rcases Nat.lt_or_eq_of_le small with below | rfl
  · exact Normal.units_eq ⟨below, leading⟩
  · have carried : format.Normal (2 ^ format.fractionBits) (exponent + 1) :=
      ⟨Nat.pow_lt_pow_right (by decide) (Nat.lt_succ_self _), Or.inr le_rfl⟩
    have regroup : exponent * 2 ^ format.fractionBits + 2 ^ (format.fractionBits + 1) =
        (exponent + 1) * 2 ^ format.fractionBits + 2 ^ format.fractionBits := by ring
    rw [regroup, carried.units_eq]
    ring

/-- A number is rounded to a multiple of a power of two.  Unless this power is one, the number has
more bits than the field. -/
theorem exists_rounded (format : FloatFormat) (num : Nat) (positive : 0 < den) :
    ∃ exponent,
      format.nearest num den =
        exponent * 2 ^ format.fractionBits + roundQuotient num (den * 2 ^ exponent) ∧
      format.units (format.nearest num den) =
        roundQuotient num (den * 2 ^ exponent) * 2 ^ exponent ∧
      (exponent = 0 ∨ 2 ^ format.fractionBits * (den * 2 ^ exponent) ≤ num) := by
  obtain ⟨below, above⟩ := log2_sub_bounds (num / den) format.fractionBits
  have rounds : format.nearest num den =
      ((num / den).log2 - format.fractionBits) * 2 ^ format.fractionBits +
        roundQuotient num (den * 2 ^ ((num / den).log2 - format.fractionBits)) := rfl
  rw [rounds]
  generalize (num / den).log2 - format.fractionBits = exponent at *
  obtain ⟨low, high⟩ := roundQuotient_bounds num (den * 2 ^ exponent)
  have quotient : num / (den * 2 ^ exponent) < 2 ^ (format.fractionBits + 1) := by
    rw [← Nat.div_div_eq_div_mul, Nat.div_lt_iff_lt_mul (Nat.two_pow_pos _), ← Nat.pow_add]
    exact below
  have leading : exponent = 0 ∨ 2 ^ format.fractionBits ≤ num / (den * 2 ^ exponent) := by
    rcases Nat.eq_zero_or_pos exponent with zero | nonzero
    · exact Or.inl zero
    · right
      rw [← Nat.div_div_eq_div_mul, Nat.le_div_iff_mul_le (Nat.two_pow_pos _), ← Nat.pow_add]
      exact above nonzero
  refine ⟨exponent, rfl, units_of_rounded (by omega) (leading.imp_right (le_trans · low)),
    leading.imp_right fun many => ?_⟩
  exact (Nat.le_div_iff_mul_le (Nat.mul_pos positive (Nat.two_pow_pos _))).mp many

theorem units_injective (format : FloatFormat) : Function.Injective format.units := by
  intro first second same
  have found : format.nearest (format.units first * 1) 1 = first := nearest_units first Nat.one_pos
  rw [same, nearest_units second Nat.one_pos] at found
  exact found.symm

/-- A pattern that is nearest to a quotient of units: none is nearer, and the pattern is even if
another one is as near. -/
structure IsNearest (format : FloatFormat) (num den pattern : Nat) : Prop where
  least : ∀ other, distance num (format.units pattern * den : Nat) ≤
    distance num (format.units other * den : Nat)
  even : ∀ other, other ≠ pattern → distance num (format.units other * den : Nat) =
    distance num (format.units pattern * den : Nat) → pattern % 2 = 0

/-- Rounding finds the nearest pattern, and the even one of two.  A pattern is a multiple of the
step, or it lies below the least number with so many bits. -/
theorem isNearest_nearest (fraction : 0 < format.fractionBits) (num : Nat) (positive : 0 < den) :
    format.IsNearest num den (format.nearest num den) := by
  obtain ⟨exponent, pattern, units, many⟩ := exists_rounded format num positive
  have step : 0 < den * 2 ^ exponent := Nat.mul_pos positive (Nat.two_pow_pos _)
  have found := isNearestMultiple_roundQuotient num step
  have value : format.units (format.nearest num den) * den =
      roundQuotient num (den * 2 ^ exponent) * (den * 2 ^ exponent) := by
    rw [units]
    ring
  have multiple (other : Nat) :
      (∃ factor, format.units other * den = factor * (den * 2 ^ exponent)) ∨
      format.units other * den < 2 ^ format.fractionBits * (den * 2 ^ exponent) ∧
        2 ^ format.fractionBits * (den * 2 ^ exponent) ≤ num := by
    obtain ⟨significand, shift, normal, rfl⟩ := exists_normal_of_pattern format other
    rw [normal.units_eq]
    rcases Nat.le_total exponent shift with above | below
    · obtain ⟨more, rfl⟩ := Nat.exists_eq_add_of_le above
      exact Or.inl ⟨significand * 2 ^ more, by ring⟩
    · rcases Nat.eq_or_lt_of_le below with rfl | less
      · exact Or.inl ⟨significand, by ring⟩
      · refine Or.inr ⟨?_, many.resolve_left (by omega)⟩
        calc significand * 2 ^ shift * den
            < 2 ^ (format.fractionBits + 1) * 2 ^ shift * den :=
              Nat.mul_lt_mul_of_pos_right
                (Nat.mul_lt_mul_of_pos_right normal.small (Nat.two_pow_pos _)) positive
          _ = 2 ^ format.fractionBits * (den * 2 ^ (shift + 1)) := by ring
          _ ≤ 2 ^ format.fractionBits * (den * 2 ^ exponent) :=
              Nat.mul_le_mul_left _ (Nat.mul_le_mul_left _
                (Nat.pow_le_pow_right (by decide) less))
  constructor
  · intro other
    rw [value]
    rcases multiple other with ⟨factor, same⟩ | ⟨below, above⟩
    · rw [same]
      exact found.least factor
    · refine le_trans (found.least (2 ^ format.fractionBits)) ?_
      simp only [distance]
      omega
  · intro other different tie
    rw [value] at tie
    rcases multiple other with ⟨factor, same⟩ | ⟨below, above⟩
    · rw [same] at tie
      have even : roundQuotient num (den * 2 ^ exponent) % 2 = 0 := by
        apply found.even factor _ tie
        rintro rfl
        apply different
        apply units_injective format
        exact Nat.eq_of_mul_eq_mul_right positive (same.trans value.symm)
      obtain ⟨bits, bitsEq⟩ := Nat.exists_eq_succ_of_ne_zero fraction.ne'
      rw [pattern, bitsEq, Nat.pow_succ, ← Nat.mul_assoc]
      omega
    · have least := found.least (2 ^ format.fractionBits)
      simp only [distance] at tie least
      omega

end FloatFormat

end Fieldbus
