import Fieldbus.Number.Binary64
import Mathlib.Tactic.Ring

/-!
# Exact conversions

A format rounds the numbers that it holds to themselves.  Every binary32 number is held by
binary64, so widening loses nothing, and narrowing finds the pattern again.  A NaN keeps its
sign and its payload, and becomes quiet.
-/

namespace Fieldbus

theorem roundQuotient_mul (value : Nat) {den : Nat} (positive : 0 < den) :
    roundQuotient (value * den) den = value := by
  rw [roundQuotient, Nat.mul_div_cancel _ positive, Nat.mul_mod_left]
  exact if_pos positive

namespace FloatFormat

variable {format : FloatFormat} {significand exponent value den : Nat}

/-- The significand of a number in its shortest form: its leading bit is set, unless the
exponent is the least one. -/
structure Normal (format : FloatFormat) (significand exponent : Nat) : Prop where
  small : significand < 2 ^ (format.fractionBits + 1)
  leading : exponent = 0 ∨ 2 ^ format.fractionBits ≤ significand

theorem exists_normal_of_pattern (format : FloatFormat) (pattern : Nat) : ∃ significand exponent,
    format.Normal significand exponent ∧
      pattern = exponent * 2 ^ format.fractionBits + significand := by
  have split := Nat.div_add_mod' pattern (2 ^ format.fractionBits)
  have small := Nat.mod_lt pattern (Nat.two_pow_pos format.fractionBits)
  have twice : 2 ^ (format.fractionBits + 1) = 2 * 2 ^ format.fractionBits := by ring
  cases fields : pattern / 2 ^ format.fractionBits with
  | zero =>
      rw [fields] at split
      exact ⟨_, 0, ⟨by omega, Or.inl rfl⟩, split.symm⟩
  | succ exponent =>
      rw [fields, Nat.succ_mul] at split
      exact ⟨2 ^ format.fractionBits + pattern % 2 ^ format.fractionBits, exponent,
        ⟨by omega, Or.inr (Nat.le_add_right _ _)⟩, by omega⟩

/-- The shortest form of a number that takes no more bits than the significand has. -/
theorem exists_normal (small : significand < 2 ^ (format.fractionBits + 1)) (shift : Nat) :
    ∃ shortest exponent, format.Normal shortest exponent ∧
      significand * 2 ^ shift = shortest * 2 ^ exponent := by
  induction shift generalizing significand with
  | zero => exact ⟨significand, 0, ⟨small, Or.inl rfl⟩, rfl⟩
  | succ shift ih =>
      by_cases leading : 2 ^ format.fractionBits ≤ significand
      · exact ⟨significand, shift + 1, ⟨small, Or.inr leading⟩, rfl⟩
      · have twice : 2 ^ (format.fractionBits + 1) = 2 * 2 ^ format.fractionBits := by ring
        have doubled : 2 * significand < 2 ^ (format.fractionBits + 1) := by omega
        obtain ⟨shortest, exponent, normal, same⟩ := ih doubled
        exact ⟨shortest, exponent, normal, by rw [← same]; ring⟩

theorem Normal.units_eq (normal : format.Normal significand exponent) :
    format.units (exponent * 2 ^ format.fractionBits + significand) =
      significand * 2 ^ exponent := by
  have positive : 0 < 2 ^ format.fractionBits := Nat.two_pow_pos _
  have twice : 2 ^ (format.fractionBits + 1) = 2 * 2 ^ format.fractionBits := by ring
  have small := normal.small
  rw [units]
  simp only [Nat.pow_eq]
  by_cases leading : 2 ^ format.fractionBits ≤ significand
  · obtain ⟨fraction, rfl⟩ := Nat.exists_eq_add_of_le leading
    have regroup : exponent * 2 ^ format.fractionBits + (2 ^ format.fractionBits + fraction) =
        fraction + (exponent + 1) * 2 ^ format.fractionBits := by ring
    rw [regroup, Nat.add_mul_div_right _ _ positive, Nat.add_mul_mod_self_right,
      Nat.div_eq_of_lt (by omega), Nat.mod_eq_of_lt (by omega), if_neg (by omega)]
    congr 2
    omega
  · obtain rfl := normal.leading.resolve_right leading
    rw [Nat.zero_mul, Nat.zero_add, Nat.div_eq_of_lt (by omega), if_pos rfl,
      Nat.mod_eq_of_lt (by omega), Nat.pow_zero, Nat.mul_one]

theorem Normal.nearest_eq (normal : format.Normal significand exponent) (positive : 0 < den) :
    format.nearest (significand * 2 ^ exponent * den) den =
      exponent * 2 ^ format.fractionBits + significand := by
  have found : (significand * 2 ^ exponent).log2 - format.fractionBits = exponent := by
    rcases normal.leading with rfl | leading
    · rw [Nat.pow_zero, Nat.mul_one]
      rcases Nat.eq_zero_or_pos significand with rfl | nonzero
      · simp
      · have := (Nat.log2_lt (by omega)).mpr normal.small
        omega
    · have nonzero : significand * 2 ^ exponent ≠ 0 := by
        have := Nat.mul_pos (lt_of_lt_of_le (Nat.two_pow_pos _) leading) (Nat.two_pow_pos exponent)
        omega
      have exact : (significand * 2 ^ exponent).log2 = format.fractionBits + exponent := by
        rw [Nat.log2_eq_iff nonzero]
        refine ⟨?_, ?_⟩
        · rw [Nat.pow_add]
          exact Nat.mul_le_mul_right _ leading
        · rw [Nat.add_right_comm, Nat.pow_add]
          exact Nat.mul_lt_mul_of_pos_right normal.small (Nat.two_pow_pos _)
      omega
  rw [nearest, Nat.mul_div_cancel _ positive, found]
  simp only [Nat.pow_eq]
  rw [Nat.mul_assoc, Nat.mul_comm (2 ^ exponent),
    roundQuotient_mul _ (Nat.mul_pos positive (Nat.two_pow_pos _))]

theorem nearest_units (pattern : Nat) (positive : 0 < den) :
    format.nearest (format.units pattern * den) den = pattern := by
  obtain ⟨significand, exponent, normal, rfl⟩ := exists_normal_of_pattern format pattern
  rw [normal.units_eq, normal.nearest_eq positive]

/-- A number that takes no more bits than the significand has is not rounded. -/
theorem units_nearest (small : significand < 2 ^ (format.fractionBits + 1)) (shift : Nat) :
    format.units (format.nearest (significand * 2 ^ shift) 1) = significand * 2 ^ shift := by
  obtain ⟨shortest, exponent, normal, same⟩ := exists_normal small shift
  have rounded := normal.nearest_eq Nat.one_pos
  rw [Nat.mul_one] at rounded
  rw [same, rounded, normal.units_eq]

/-- How great the pattern of a number gets that is not rounded. -/
theorem nearest_lt (small : significand < 2 ^ (format.fractionBits + 1)) {shift bits : Nat}
    (bound : significand * 2 ^ shift < 2 ^ (format.fractionBits + bits)) (positive : 0 < bits) :
    format.nearest (significand * 2 ^ shift) 1 < (bits + 1) * 2 ^ format.fractionBits := by
  obtain ⟨shortest, exponent, normal, same⟩ := exists_normal small shift
  have rounded := normal.nearest_eq Nat.one_pos
  rw [Nat.mul_one] at rounded
  have few : exponent < bits := by
    rcases normal.leading with rfl | leading
    · exact positive
    · have least : 2 ^ (format.fractionBits + exponent) < 2 ^ (format.fractionBits + bits) := by
        rw [Nat.pow_add _ _ exponent]
        exact lt_of_le_of_lt (Nat.mul_le_mul_right _ leading) (same ▸ bound)
      have := (Nat.pow_lt_pow_iff_right (by decide)).mp least
      omega
  have shortestSmall := normal.small
  rw [same, rounded]
  calc exponent * 2 ^ format.fractionBits + shortest
      < exponent * 2 ^ format.fractionBits + 2 ^ (format.fractionBits + 1) := by omega
    _ = (exponent + 1 + 1) * 2 ^ format.fractionBits := by ring
    _ ≤ (bits + 1) * 2 ^ format.fractionBits := Nat.mul_le_mul_right _ (by omega)

end FloatFormat

namespace Binary64

open FloatFormat

variable {negative : Bool} {magnitude pattern : Nat}

theorem toNat_bits_ofMagnitude (small : magnitude < 2 ^ 63) :
    (ofMagnitude negative magnitude).bits.toNat =
      (if negative then 2 ^ 63 else 0) + magnitude := by
  rw [ofMagnitude, UInt64.toNat_ofNat', Nat.pow_eq]
  apply Nat.mod_eq_of_lt
  split <;> omega

@[simp]
theorem magnitude_ofMagnitude (small : magnitude < 2 ^ 63) :
    (ofMagnitude negative magnitude).magnitude = magnitude := by
  rw [Binary64.magnitude, toNat_bits_ofMagnitude small, Nat.pow_eq]
  split <;> omega

@[simp]
theorem negative_ofMagnitude (small : magnitude < 2 ^ 63) :
    (ofMagnitude negative magnitude).negative = negative := by
  rw [Binary64.negative, toNat_bits_ofMagnitude small, Nat.pow_eq]
  cases negative with
  | true => simp
  | false => simpa using small

theorem infinity_binary32 : binary32.infinity = 255 * 2 ^ 23 := rfl

theorem infinity_binary64 : binary64.infinity = 2047 * 2 ^ 52 := rfl

theorem natAbs_units (x : Binary64) : x.units.natAbs = binary64.units x.magnitude := by
  rw [Binary64.units]
  split
  · rw [Int.natAbs_neg, Int.natAbs_natCast]
  · exact Int.natAbs_natCast _

theorem units_ofBinary32 (finite : pattern % 2 ^ 31 < binary32.infinity) :
    (ofBinary32 pattern).negative = decide (2 ^ 31 ≤ pattern) ∧
      (ofBinary32 pattern).magnitude < binary64.infinity ∧
      binary64.units (ofBinary32 pattern).magnitude =
        binary32.units (pattern % 2 ^ 31) *
          2 ^ (binary64.unitShift - binary32.unitShift) := by
  obtain ⟨significand, exponent, normal, split⟩ :=
    exists_normal_of_pattern binary32 (pattern % 2 ^ 31)
  have units : binary32.units (pattern % 2 ^ 31) = significand * 2 ^ exponent := by
    rw [split, normal.units_eq]
  have fewer : significand < 2 ^ (binary64.fractionBits + 1) :=
    lt_of_lt_of_le normal.small (by decide)
  have shifted : binary32.units (pattern % 2 ^ 31) *
      2 ^ (binary64.unitShift - binary32.unitShift) = significand * 2 ^ (exponent + 925) := by
    rw [units, Nat.mul_assoc, ← Nat.pow_add]
    rfl
  have bound : significand * 2 ^ (exponent + 925) < 2 ^ (binary64.fractionBits + 1151) := by
    have few : exponent ≤ 254 := by
      change pattern % 2 ^ 31 = exponent * 2 ^ 23 + significand at split
      rw [infinity_binary32] at finite
      omega
    calc significand * 2 ^ (exponent + 925) < 2 ^ 24 * 2 ^ (exponent + 925) :=
          Nat.mul_lt_mul_of_pos_right normal.small (Nat.two_pow_pos _)
      _ = 2 ^ (24 + (exponent + 925)) := (Nat.pow_add _ _ _).symm
      _ ≤ 2 ^ (binary64.fractionBits + 1151) :=
          Nat.pow_le_pow_right (by decide) (by show _ ≤ 52 + 1151; omega)
  have below : binary64.nearest (significand * 2 ^ (exponent + 925)) 1 < binary64.infinity := by
    refine lt_trans (nearest_lt fewer bound (by decide)) ?_
    rw [infinity_binary64]
    decide
  have widened : ofBinary32 pattern = ofMagnitude (decide (2 ^ 31 ≤ pattern))
      (binary64.nearest (significand * 2 ^ (exponent + 925)) 1) := by
    rw [ofBinary32]
    simp only [Nat.pow_eq]
    rw [if_neg (by omega), if_neg (by omega), shifted, ofUnits, FloatFormat.round,
      Nat.min_eq_left below.le]
  have inside : binary64.nearest (significand * 2 ^ (exponent + 925)) 1 < 2 ^ 63 := by
    refine lt_trans below ?_
    rw [infinity_binary64]
    decide
  rw [widened, negative_ofMagnitude inside, magnitude_ofMagnitude inside, shifted]
  exact ⟨rfl, below, units_nearest fewer _⟩

/-- A pattern is made of its sign and its magnitude. -/
theorem sign_add_magnitude (small : pattern < 2 ^ 32) :
    (if decide (2 ^ 31 ≤ pattern) then 2 ^ 31 else 0) + pattern % 2 ^ 31 = pattern := by
  rcases Nat.lt_or_ge pattern (2 ^ 31) with positive | negative
  · rw [if_neg (by simpa using positive)]
    omega
  · rw [if_pos (by simpa using negative)]
    omega

theorem toBinary32?_ofBinary32 (small : pattern < 2 ^ 32)
    (number : pattern % 2 ^ 31 ≤ binary32.infinity) :
    (ofBinary32 pattern).toBinary32? = some pattern := by
  have whole := sign_add_magnitude small
  rw [toBinary32?]
  simp only [Nat.pow_eq]
  rcases Nat.lt_or_eq_of_le number with finite | isInfinite
  · obtain ⟨sign, below, units⟩ := units_ofBinary32 finite
    have notNaN : ¬ (ofBinary32 pattern).isNaN := by
      rw [isNaN, decide_eq_true_iff]
      omega
    have notInfinite : ¬ (ofBinary32 pattern).isInfinite := by
      rw [Binary64.isInfinite, decide_eq_true_iff]
      omega
    rw [if_neg notNaN, if_neg notInfinite, natAbs_units, units,
      nearest_units _ (Nat.two_pow_pos _), if_pos finite, sign, whole]
  · have widened : ofBinary32 pattern =
        ofMagnitude (decide (2 ^ 31 ≤ pattern)) binary64.infinity := by
      rw [ofBinary32]
      simp only [Nat.pow_eq]
      rw [if_neg (by omega), if_pos isInfinite, infinity]
    have inside : binary64.infinity < 2 ^ 63 := by decide
    have notNaN : ¬ (ofBinary32 pattern).isNaN := by
      rw [isNaN, decide_eq_true_iff, widened, magnitude_ofMagnitude inside]
      omega
    have infinite : (ofBinary32 pattern).isInfinite := by
      rw [Binary64.isInfinite, decide_eq_true_iff, widened, magnitude_ofMagnitude inside]
    rw [if_neg notNaN, if_pos infinite, widened, negative_ofMagnitude inside, ← isInfinite, whole]

/-- A NaN becomes quiet when it is widened. -/
theorem ofBinary32_of_nan (isNaN : binary32.infinity < pattern % 2 ^ 31) :
    ofBinary32 pattern = ofMagnitude (decide (2 ^ 31 ≤ pattern))
      (binary64.infinity + (pattern % 2 ^ 23 ||| 2 ^ 22) * 2 ^ 29) := by
  have payload : pattern % 2 ^ 31 % 2 ^ 23 = pattern % 2 ^ 23 := by omega
  rw [ofBinary32]
  simp only [Nat.pow_eq]
  rw [if_pos isNaN, payload, ← Nat.shiftLeft_eq (_ ||| _), Nat.shiftLeft_or_distrib,
    Nat.shiftLeft_eq, Nat.shiftLeft_eq]
  rfl

/-- Narrowing a widened pattern and widening it again changes nothing more. -/
theorem exists_toBinary32?_ofBinary32 (small : pattern < 2 ^ 32) :
    ∃ narrow, (ofBinary32 pattern).toBinary32? = some narrow ∧ narrow < 2 ^ 32 ∧
      ofBinary32 narrow = ofBinary32 pattern := by
  rcases Nat.lt_or_ge binary32.infinity (pattern % 2 ^ 31) with isNaN | number
  · obtain ⟨quiet, quietEq⟩ : ∃ quiet, quiet = pattern % 2 ^ 23 ||| 2 ^ 22 := ⟨_, rfl⟩
    have below : quiet < 2 ^ 23 := by
      rw [quietEq]
      exact Nat.or_lt_two_pow (Nat.mod_lt _ (by decide)) (by decide)
    have above : 2 ^ 22 ≤ quiet := by
      rw [quietEq]
      exact Nat.right_le_or
    have settled : quiet ||| 2 ^ 22 = quiet := by
      rw [quietEq, Nat.or_assoc, Nat.or_self]
    have widened := ofBinary32_of_nan isNaN
    rw [← quietEq, infinity_binary64] at widened
    have inside : 2047 * 2 ^ 52 + quiet * 2 ^ 29 < 2 ^ 63 := by omega
    have stillNaN : (ofBinary32 pattern).isNaN := by
      rw [Binary64.isNaN, decide_eq_true_iff, widened, magnitude_ofMagnitude inside,
        infinity_binary64]
      omega
    have kept : (2047 * 2 ^ 52 + quiet * 2 ^ 29) % 2 ^ 52 / 2 ^ 29 = quiet := by omega
    obtain ⟨narrow, narrowEq⟩ : ∃ narrow, narrow =
        (if decide (2 ^ 31 ≤ pattern) then 2 ^ 31 else 0) + binary32.infinity + quiet := ⟨_, rfl⟩
    have fields : narrow % 2 ^ 31 = 255 * 2 ^ 23 + quiet ∧ narrow % 2 ^ 23 = quiet ∧
        narrow < 2 ^ 32 ∧ (2 ^ 31 ≤ narrow ↔ 2 ^ 31 ≤ pattern) := by
      rw [narrowEq, infinity_binary32]
      rcases Nat.lt_or_ge pattern (2 ^ 31) with positive | negative
      · rw [if_neg (by simpa using positive)]
        omega
      · rw [if_pos (by simpa using negative)]
        omega
    obtain ⟨magnitude, payload, narrowSmall, sign⟩ := fields
    refine ⟨narrow, ?_, narrowSmall, ?_⟩
    · rw [toBinary32?]
      simp only [Nat.pow_eq]
      rw [if_pos stillNaN, widened, magnitude_ofMagnitude inside, negative_ofMagnitude inside,
        kept, settled, ← narrowEq]
    · have narrowNaN : binary32.infinity < narrow % 2 ^ 31 := by
        rw [magnitude, infinity_binary32]
        omega
      rw [ofBinary32_of_nan narrowNaN, payload, settled, infinity_binary64, widened,
        decide_eq_decide.mpr sign]
  · exact ⟨pattern, toBinary32?_ofBinary32 small number, small, rfl⟩

end Binary64

end Fieldbus
