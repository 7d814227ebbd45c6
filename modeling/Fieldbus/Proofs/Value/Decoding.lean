import Fieldbus.Proofs.Bits
import Fieldbus.Pdo.Values

/-!
# What decoding looks at

A decoded value depends on the length of its buffer and on few of its bits: on one bit
for a truth value, and on whole bytes for everything else.
-/

namespace Fieldbus

theorem DataType.storage?_eq_truth_iff {type : DataType} :
    type.storage? = some .truth ↔ type = .bool := by
  cases type <;> simp [storage?]

namespace Value

variable {type : Option DataType} {bitLength bitOffset : Int} {first second : Bytes}

theorem truth_eq_bit? (data : Bytes) {position : Nat} (small : position < 8) :
    decide (data.toNat / 2 ^ position % 2 = 1) = (data.bit? position).getD false := by
  cases data with
  | nil => simp [Bytes.toNat, Bytes.bit?]
  | cons byte rest =>
      rw [← Nat.testBit_eq_decide_div_mod_eq, Bytes.testBit_toNat_cons byte rest small, Bytes.bit?,
        Nat.div_eq_of_lt small, Nat.mod_eq_of_lt small]
      rfl

theorem truth_take_eq_bit? (data : Bytes) {position size : Nat} (small : position < 8)
    (positive : 0 < size) :
    decide (Bytes.toNat (data.take size) / 2 ^ position % 2 = 1) =
      (data.bit? position).getD false := by
  rw [truth_eq_bit? _ small, Bytes.bit?, Bytes.bit?, List.getElem?_take, if_pos (by omega)]

/-- Decoding looks at one bit of a truth value, and at the bytes of any other value that
has a length. -/
theorem decode_congr (lengthEq : first.length = second.length)
    (truth : type = some .bool → 0 < bitLength → 0 ≤ bitOffset → bitOffset < 8 →
      first.bit? bitOffset.toNat = second.bit? bitOffset.toNat)
    (whole : type ≠ some .bool → 0 < bitLength → 8 ∣ bitLength → first = second) :
    decode type bitLength first bitOffset = decode type bitLength second bitOffset := by
  have emptyEq : first.isEmpty = second.isEmpty := by
    cases first <;> cases second <;> simp_all
  rw [decode, decode, emptyEq, lengthEq]
  by_cases isEmpty : second.isEmpty = true
  · rw [if_pos isEmpty, if_pos isEmpty]
  · rw [if_neg isEmpty, if_neg isEmpty]
    cases stored : type.bind fun known => known.storage?.map (known, ·) with
    | none => rfl
    | some found =>
        obtain ⟨known, storage⟩ := found
        obtain ⟨_, rfl, storageEq⟩ := Option.bind_eq_some_iff.mp stored
        obtain ⟨_, storageEq, same⟩ := Option.map_eq_some_iff.mp storageEq
        cases same
        by_cases short : bitLength ≤ 0
        · simp only [if_pos short]
        · by_cases isTruth : known = .bool
          · subst isTruth
            cases storageEq
            by_cases offset : 0 ≤ bitOffset ∧ bitOffset ≤ 7
            · have small : bitOffset.toNat < 8 := by omega
              have positive : 0 < (byteCount bitLength).toNat := by
                rw [byteCount]
                omega
              simp only [Nat.pow_eq, truth_take_eq_bit? _ small positive,
                truth rfl (by omega) offset.1 (by omega)]
            · simp only [if_neg offset]
          · by_cases aligned : bitLength % 8 = 0
            · rw [whole (by simpa using isTruth) (by omega) (by omega)]
            · have unaligned : storage ≠ .truth ∧ bitLength % 8 ≠ 0 := by
                refine ⟨?_, aligned⟩
                rintro rfl
                exact isTruth (DataType.storage?_eq_truth_iff.mp storageEq)
              simp only [if_neg short, if_pos unaligned]

end Value

/-- The payload that bytes of a storage hold. -/
def Storage.payload (storage : Storage) (data : Bytes) (bitOffset : Int) : Payload :=
  match storage with
  | .truth => .bool (data.toNat / 2 ^ bitOffset.toNat % 2 = 1)
  | .text => .text (Text.ofChars (Utf8.decodeLossy data))
  | .raw => .bytes data
  | .scalar number => number.decode data

/-- A number that is at most half of what the bytes can hold is not negative. -/
theorem Bytes.toInt_eq_toNat {bytes : Bytes} (small : 2 * bytes.toNat < 256 ^ bytes.length) :
    bytes.toInt = bytes.toNat := by
  rw [toInt]
  simp only [Nat.pow_eq, if_pos small]

/-- The first byte of a number tells one from zero. -/
theorem Scalar.decode_one_ne_zeros (scalar : Scalar) (length : Nat) :
    scalar.decode (1 :: Bytes.zeros length) ≠ scalar.decode (Bytes.zeros (length + 1)) := by
  have one := Bytes.toNat_one_cons_zeros length
  have zero := Bytes.toNat_zeros (length + 1)
  intro same
  cases scalar with
  | unsigned width =>
      rw [decode, decode, one, zero] at same
      exact absurd (Payload.int.inj same) (by decide)
  | signed width =>
      have oneInt : Bytes.toInt (1 :: Bytes.zeros length) = 1 := by
        rw [Bytes.toInt_eq_toNat, one]
        · rfl
        · rw [one, List.length_cons, pow_succ]
          have := Nat.one_le_pow (Bytes.zeros length).length 256 (by decide)
          omega
      have zeroInt : Bytes.toInt (Bytes.zeros (length + 1)) = 0 := by
        rw [Bytes.toInt_eq_toNat, zero]
        · rfl
        · rw [zero]
          exact Nat.pow_pos (by decide)
      rw [decode, decode, oneInt, zeroInt] at same
      exact absurd (Payload.int.inj same) (by decide)
  | float32 =>
      rw [decode, decode, one, zero] at same
      exact absurd (Payload.real.inj same) (by decide +kernel)
  | float64 =>
      rw [decode, decode, one, zero] at same
      exact absurd (Payload.real.inj same) (by decide)

/-- Every storage tells a first byte of one from zeros. -/
theorem Storage.payload_one_ne_zeros (storage : Storage) (length : Nat) :
    storage.payload (1 :: Bytes.zeros length) 0 ≠ storage.payload (Bytes.zeros (length + 1)) 0 := by
  intro same
  cases storage with
  | truth =>
      rw [payload, payload, Bytes.toNat_one_cons_zeros, Bytes.toNat_zeros] at same
      exact absurd (Payload.bool.inj same) (by decide)
  | text =>
      rw [payload, payload] at same
      have texts := Payload.text.inj same
      cases texts
  | raw => cases same
  | scalar scalar => exact scalar.decode_one_ne_zeros length same

namespace Value

variable {type : Option DataType} {bitLength bitOffset : Int} {raw : Bytes} {known : DataType}
  {storage : Storage} {fault : CodecFault}

/-- Values of a storage can have so many bits: a positive number, but for truth values
whole bytes, and for numbers as many as they take. -/
structure Fits (storage : Storage) (bitLength : Int) : Prop where
  positive : 0 < bitLength
  aligned : storage ≠ .truth → bitLength % 8 = 0
  width : ∀ scalar, storage = .scalar scalar → (scalar.width : Int) = byteCount bitLength

/-- The codec has values of a type in so many bits. -/
def Supports (type : Option DataType) (bitLength : Int) : Prop :=
  ∃ known storage, type = some known ∧ known.storage? = some storage ∧ Fits storage bitLength

theorem fits_truth_iff : Fits .truth bitLength ↔ 0 < bitLength :=
  ⟨Fits.positive, fun positive => ⟨positive, fun whole => absurd rfl whole, nofun⟩⟩

theorem fits_scalar_iff {scalar : Scalar} : Fits (.scalar scalar) bitLength ↔
    0 < bitLength ∧ bitLength % 8 = 0 ∧ (scalar.width : Int) = byteCount bitLength := by
  constructor
  · intro fits
    exact ⟨fits.positive, fits.aligned nofun, fits.width scalar rfl⟩
  · rintro ⟨positive, aligned, width⟩
    refine ⟨positive, fun _ => aligned, ?_⟩
    rintro _ ⟨⟩
    exact width

theorem fits_whole_iff (whole : storage ≠ .truth) (free : ∀ scalar, storage ≠ .scalar scalar) :
    Fits storage bitLength ↔ 0 < bitLength ∧ bitLength % 8 = 0 := by
  constructor
  · intro fits
    exact ⟨fits.positive, fits.aligned whole⟩
  · rintro ⟨positive, aligned⟩
    exact ⟨positive, fun _ => aligned, fun scalar same => absurd same (free scalar)⟩

instance : (storage : Storage) → (bitLength : Int) → Decidable (Fits storage bitLength)
  | .truth, _ => decidable_of_iff _ fits_truth_iff.symm
  | .text, _ => decidable_of_iff _ (fits_whole_iff (by simp) (by simp)).symm
  | .raw, _ => decidable_of_iff _ (fits_whole_iff (by simp) (by simp)).symm
  | .scalar _, _ => decidable_of_iff _ fits_scalar_iff.symm

theorem supports_iff : Supports type bitLength ↔
    ∃ storage ∈ type.bind DataType.storage?, Fits storage bitLength := by
  constructor
  · rintro ⟨known, storage, rfl, stored, fits⟩
    exact ⟨storage, stored, fits⟩
  · rintro ⟨storage, stored, fits⟩
    obtain ⟨known, rfl, stored⟩ := Option.bind_eq_some_iff.mp stored
    exact ⟨known, storage, rfl, stored, fits⟩

instance (type : Option DataType) (bitLength : Int) : Decidable (Supports type bitLength) :=
  decidable_of_iff _ supports_iff.symm

theorem decode_of_fits (stored : known.storage? = some storage) (fits : Fits storage bitLength)
    (inhabited : raw ≠ []) (reaches : byteCount bitLength ≤ raw.length)
    (offset : storage = .truth → 0 ≤ bitOffset ∧ bitOffset ≤ 7) :
    decode (some known) bitLength raw bitOffset =
      .ok ⟨known, storage.payload (raw.take (byteCount bitLength).toNat) bitOffset⟩ := by
  have notEmpty : ¬ raw.isEmpty = true := by simpa using inhabited
  have positive : ¬ bitLength ≤ 0 := by
    have := fits.positive
    omega
  have aligned : ¬ (storage ≠ .truth ∧ bitLength % 8 ≠ 0) := by
    rintro ⟨notTruth, unaligned⟩
    exact unaligned (fits.aligned notTruth)
  have enough : ¬ (raw.length : Int) < byteCount bitLength := by omega
  rw [decode, if_neg notEmpty]
  simp only [Option.bind_some, stored, Option.map_some, if_neg positive, if_neg aligned,
    if_neg enough]
  cases storage with
  | truth => simp only [if_pos (offset rfl), Storage.payload, Nat.pow_eq]
  | text => rfl
  | raw => rfl
  | scalar scalar =>
      have width : ¬ (scalar.width : Int) ≠ byteCount bitLength := by
        simpa using fits.width scalar rfl
      simp only [if_neg width, Storage.payload]

theorem fits_of_decode {value : Value} (decoded : decode type bitLength raw bitOffset = .ok value) :
    ∃ known storage, type = some known ∧ known.storage? = some storage ∧
      Fits storage bitLength ∧ raw ≠ [] ∧ byteCount bitLength ≤ raw.length ∧
      (storage = .truth → 0 ≤ bitOffset ∧ bitOffset ≤ 7) := by
  rw [decode] at decoded
  by_cases isEmpty : raw.isEmpty = true
  · rw [if_pos isEmpty] at decoded
    cases decoded
  · rw [if_neg isEmpty] at decoded
    have inhabited : raw ≠ [] := by simpa using isEmpty
    cases stored : type.bind fun known => known.storage?.map (known, ·) with
    | none =>
        rw [stored] at decoded
        cases decoded
    | some found =>
        obtain ⟨known, storage⟩ := found
        rw [stored] at decoded
        obtain ⟨_, rfl, storageEq⟩ := Option.bind_eq_some_iff.mp stored
        obtain ⟨_, storageEq, same⟩ := Option.map_eq_some_iff.mp storageEq
        cases same
        by_cases short : bitLength ≤ 0
        · simp [if_pos short] at decoded
        · by_cases unaligned : storage ≠ .truth ∧ bitLength % 8 ≠ 0
          · simp only [if_neg short, if_pos unaligned] at decoded
            cases decoded
          · by_cases small : (raw.length : Int) < byteCount bitLength
            · simp only [if_neg short, if_neg unaligned, if_pos small] at decoded
              cases decoded
            · simp only [if_neg short, if_neg unaligned, if_neg small] at decoded
              refine ⟨known, storage, rfl, storageEq, ⟨by omega, ?_, ?_⟩, inhabited, by omega, ?_⟩
              · intro notTruth
                by_contra rest
                exact unaligned ⟨notTruth, rest⟩
              · rintro scalar rfl
                by_contra other
                simp only [if_pos (show (scalar.width : Int) ≠ byteCount bitLength from other)]
                  at decoded
                cases decoded
              · rintro rfl
                by_contra outside
                simp only [if_neg outside] at decoded
                cases decoded

theorem exists_decode_iff :
    (∃ value, decode type bitLength raw bitOffset = .ok value) ↔
      raw ≠ [] ∧ Supports type bitLength ∧ byteCount bitLength ≤ raw.length ∧
        (type = some .bool → 0 ≤ bitOffset ∧ bitOffset ≤ 7) := by
  constructor
  · rintro ⟨value, decoded⟩
    obtain ⟨known, storage, rfl, stored, fits, inhabited, reaches, offset⟩ :=
      fits_of_decode decoded
    refine ⟨inhabited, ⟨known, storage, rfl, stored, fits⟩, reaches, ?_⟩
    rintro isTruth
    cases isTruth
    cases stored
    exact offset rfl
  · rintro ⟨inhabited, ⟨known, storage, rfl, stored, fits⟩, reaches, offset⟩
    refine ⟨_, decode_of_fits stored fits inhabited reaches ?_⟩
    rintro rfl
    apply offset
    rw [DataType.storage?_eq_truth_iff.mp stored]

/-- On a buffer that is long enough the codec refuses nothing but types and lengths. -/
theorem unsupported_of_decode_error (inhabited : raw ≠ [])
    (reaches : byteCount bitLength ≤ raw.length)
    (refused : decode type bitLength raw bitOffset = .error fault) :
    ∃ objection, fault = .unsupportedType (.inl type) objection := by
  have notEmpty : ¬ raw.isEmpty = true := by simpa using inhabited
  have enough : ¬ (raw.length : Int) < byteCount bitLength := by omega
  rw [decode, if_neg notEmpty] at refused
  split at refused
  · cases refused
    exact ⟨_, rfl⟩
  · simp only [if_neg enough] at refused
    split at refused
    · cases refused
      exact ⟨_, rfl⟩
    · split at refused
      · cases refused
        exact ⟨_, rfl⟩
      · split at refused
        · split at refused
          · cases refused
          · cases refused
            exact ⟨_, rfl⟩
        · cases refused
        · cases refused
        · split at refused
          · cases refused
            exact ⟨_, rfl⟩
          · cases refused

end Value

end Fieldbus
