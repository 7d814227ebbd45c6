import Fieldbus.Proofs.Number.Narrowing
import Fieldbus.Proofs.Value.Inverse

/-!
# Binary32 values

Bytes that hold a binary32 number are decoded to this number and encoded to the same bytes.  Every
finite binary64 number has an encoding, which is decoded to the nearest binary32 number, unless it
is so great that it would grow to an infinity.
-/

namespace Fieldbus

namespace Value

variable {raw : Bytes} {number : Binary64} {pattern : Nat} {offset bitOffset : Int}

theorem decode_float32 (lengthEq : raw.length = 4) :
    decode (some .f32) 32 raw bitOffset = .ok ⟨.f32, .real (Binary64.ofBinary32 raw.toNat)⟩ := by
  have inhabited : raw ≠ [] := by
    rintro rfl
    cases lengthEq
  have fits : Fits (.scalar .float32) 32 := by
    refine ⟨by decide, fun _ => rfl, ?_⟩
    rintro scalar ⟨⟩
    rfl
  exact decode_whole rfl inhabited fits (by rw [lengthEq]; rfl) nofun

theorem encode_float32_of_some (narrowed : number.toBinary32? = some pattern) (offset : Int) :
    encode ⟨.f32, .real number⟩ offset = .ok (Bytes.ofNat 4 pattern) := by
  have stored : DataType.f32.storage? = some (.scalar .float32) := rfl
  exact (encode_eq_ok_iff stored).mpr (.scalar (Scalar.encode_float32 narrowed))

theorem encode_float32_of_none (beyond : number.toBinary32? = none) :
    encode ⟨.f32, .real number⟩ offset =
      .error (.codec (.unsupportedValue ⟨.f32, .real number⟩ .outOfRange)) := by
  have refused : Scalar.float32.encode (.real number) = .error .outOfRange := by
    unfold Scalar.encode
    simp only [Scalar.real?, Option.bind_some, beyond]
  rw [encode]
  simp only [DataType.storage?, refused]

/-- Bytes of a binary32 number are decoded and encoded to themselves.  Encoding refuses the finite
binary64 numbers from the midpoint above the greatest binary32 number on, and all others come back
as the binary32 number that is nearest to them, with ties to even. -/
theorem float32_rounds (offset bitOffset : Int) :
    (∀ raw : Bytes, raw.length = 4 → Binary32.IsNumber raw.toNat →
      ∃ value, decode (some .f32) 32 raw bitOffset = .ok value ∧ value.encode offset = .ok raw) ∧
    ∀ number : Binary64, number.isFinite = true →
      ((∃ objection, encode ⟨.f32, .real number⟩ offset =
          .error (.codec (.unsupportedValue ⟨.f32, .real number⟩ objection))) ↔
        Binary32.midpoint ≤ number.units.natAbs) ∧
      (number.units.natAbs < Binary32.midpoint →
        ∃ data narrow, encode ⟨.f32, .real number⟩ offset = .ok data ∧ data.length = 4 ∧
          decode (some .f32) 32 data bitOffset = .ok ⟨.f32, .real narrow⟩ ∧
          Binary32.IsNearest number data.toNat ∧ narrow.isFinite = true ∧
          narrow.negative = number.negative ∧ narrow.units = Binary32.units data.toNat) := by
  have word : 256 ^ 4 = 2 ^ 32 := by decide
  constructor
  · intro raw lengthEq isNumber
    have small := raw.toNat_lt
    rw [lengthEq, word] at small
    have narrowed := Binary64.toBinary32?_ofBinary32 small isNumber
    have same : Bytes.ofNat 4 raw.toNat = raw := by
      rw [← lengthEq, Bytes.ofNat_toNat]
    refine ⟨_, decode_float32 lengthEq, ?_⟩
    rw [encode_float32_of_some narrowed offset, same]
  · intro number finite
    have refused := Binary64.toBinary32?_eq_none_iff finite
    cases narrowed : number.toBinary32? with
    | none =>
        rw [narrowed] at refused
        have beyond := refused.mp rfl
        exact ⟨⟨fun _ => beyond, fun _ => ⟨_, encode_float32_of_none narrowed⟩⟩,
          fun below => absurd beyond (Nat.not_le.mpr below)⟩
    | some pattern =>
        rw [narrowed] at refused
        have below : ¬ Binary32.midpoint ≤ number.units.natAbs := fun beyond => by
          cases refused.mpr beyond
        have nearest := Binary64.isNearest_of_toBinary32? finite narrowed
        have written : (Bytes.ofNat 4 pattern).toNat = pattern := by
          rw [Bytes.toNat_ofNat, word, Nat.mod_eq_of_lt nearest.finite.1]
        have lengthEq := Bytes.length_ofNat 4 pattern
        obtain ⟨narrowFinite, sign, value⟩ := Binary64.exact_of_ofBinary32 nearest.finite
        have encoded := encode_float32_of_some narrowed offset
        constructor
        · constructor
          · rintro ⟨objection, failed⟩
            rw [encoded] at failed
            cases failed
          · exact fun beyond => absurd beyond below
        · intro _
          refine ⟨_, _, encoded, lengthEq, decode_float32 lengthEq, ?_⟩
          rw [written]
          refine ⟨nearest, narrowFinite, ?_, value⟩
          rw [sign, Bool.eq_iff_iff, decide_eq_true_iff]
          exact nearest.sign

/-- The least negative subnormal keeps its bytes, the tie between one and the number after it goes
to one, and the midpoint above the greatest number is refused. -/
theorem float32_rounds_extremes :
    (Binary32.IsNumber (Bytes.toNat [1, 0, 0, 0x80]) ∧
      ∃ value, decode (some .f32) 32 [1, 0, 0, 0x80] 0 = .ok value ∧
        value.encode 0 = .ok [1, 0, 0, 0x80]) ∧
    (∃ narrow, encode ⟨.f32, .real ⟨0x3ff0000010000000⟩⟩ 0 = .ok [0, 0, 0x80, 0x3f] ∧
      decode (some .f32) 32 [0, 0, 0x80, 0x3f] 0 = .ok ⟨.f32, .real narrow⟩ ∧
      Binary32.IsNearest ⟨0x3ff0000010000000⟩ 0x3f800000 ∧
      narrow.units = Binary32.units 0x3f800000) ∧
    ∃ objection, encode ⟨.f32, .real ⟨0x47effffff0000000⟩⟩ 0 =
      .error (.codec (.unsupportedValue ⟨.f32, .real ⟨0x47effffff0000000⟩⟩ objection)) := by
  have isNumber : Binary32.IsNumber (Bytes.toNat [1, 0, 0, 0x80]) := by
    unfold Binary32.IsNumber
    decide
  obtain ⟨data, narrow, encoded, _, decoded, nearest, _, _, value⟩ :=
    ((float32_rounds 0 0).2 ⟨0x3ff0000010000000⟩ (by decide +kernel)).2 (by decide +kernel)
  have one : (⟨0x3ff0000010000000⟩ : Binary64).toBinary32? = some 0x3f800000 := by
    decide +kernel
  have written : encode ⟨.f32, .real ⟨0x3ff0000010000000⟩⟩ 0 = .ok [0, 0, 0x80, 0x3f] :=
    encode_float32_of_some one 0
  cases written.symm.trans encoded
  exact ⟨⟨isNumber, (float32_rounds 0 0).1 _ rfl isNumber⟩,
    ⟨narrow, written, decoded, nearest, value⟩,
    ((float32_rounds 0 0).2 ⟨0x47effffff0000000⟩ (by decide +kernel)).1.mpr (by decide +kernel)⟩

end Value

end Fieldbus
