import Fieldbus.Proofs.Outcome
import Fieldbus.Proofs.Value.RoundTrip
import Fieldbus.Proofs.Wording

/-!
# The checks of decoding

Decoding checks its arguments one after the other, and the first check that fails tells the fault:
an empty buffer, a type without a codec, a length that the type cannot have, a buffer that is too
short, and last an offset or a width that the type does not have.  The main statement says so for
all arguments, and that a value depends on the bytes of its length only.  The fault surfaces as it
is unless it writes a length or an offset of more digits than a text can hold.
-/

namespace Fieldbus

namespace DataType

def supported : List DataType :=
  [.bool, .byte, .u8, .u16, .u32, .u64, .i8, .i16, .i32, .i64, .f32, .f64, .string, .octetString,
    .domain]

/-- The number of bytes of a type whose values are numbers. -/
def width? : DataType → Option Nat
  | .byte | .u8 | .i8 => some 1
  | .u16 | .i16 => some 2
  | .u32 | .i32 | .f32 => some 4
  | .u64 | .i64 | .f64 => some 8
  | _ => none

theorem mem_supported_iff {type : DataType} :
    type ∈ supported ↔ ∃ storage, type.storage? = some storage := by
  cases type <;> simp [supported, storage?]

theorem width?_eq_some_iff {type : DataType} {width : Nat} :
    type.width? = some width ↔
      ∃ scalar, type.storage? = some (.scalar scalar) ∧ scalar.width = width := by
  cases type <;> simp [width?, storage?, Scalar.width]

end DataType

namespace Value

variable {type : Option DataType} {bitLength bitOffset : Int} {raw : Bytes} {fault : CodecFault}
  {known : DataType} {storage : Storage}

/-- The checks before the size of the buffer: the type has a codec, and the length is positive
and, but for truth values, a number of whole bytes. -/
structure Sizes (type : Option DataType) (bitLength : Int) : Prop where
  known : ∃ known ∈ DataType.supported, type = some known
  positive : 0 < bitLength
  aligned : type ≠ some .bool → bitLength % 8 = 0

/-- The buffer passes all checks. -/
structure Accepts (type : Option DataType) (bitLength : Int) (raw : Bytes) (bitOffset : Int) :
    Prop extends Sizes type bitLength where
  inhabited : raw ≠ []
  reaches : byteCount bitLength ≤ raw.length
  offset : type = some .bool → 0 ≤ bitOffset ∧ bitOffset ≤ 7
  width : ∀ width, type.bind DataType.width? = some width → bitLength = 8 * width

/-- The first check that the buffer fails, with the fault that tells it. -/
inductive Refuses (type : Option DataType) (bitLength : Int) (raw : Bytes) (bitOffset : Int) :
    CodecFault → Prop
  | empty : raw = [] → Refuses type bitLength raw bitOffset .emptyBuffer
  | unknown : raw ≠ [] → (∀ known ∈ DataType.supported, type ≠ some known) →
      Refuses type bitLength raw bitOffset (.unsupportedType (.inl type) .unknown)
  | zeroLength : raw ≠ [] → (∃ known ∈ DataType.supported, type = some known) → bitLength ≤ 0 →
      Refuses type bitLength raw bitOffset (.unsupportedType (.inl type) .zeroLength)
  | unaligned : raw ≠ [] → (∃ known ∈ DataType.supported, type = some known) → 0 < bitLength →
      type ≠ some .bool → bitLength % 8 ≠ 0 →
      Refuses type bitLength raw bitOffset (.unsupportedType (.inl type) (.unaligned bitLength))
  | short : raw ≠ [] → Sizes type bitLength → (raw.length : Int) < byteCount bitLength →
      Refuses type bitLength raw bitOffset (.bufferTooSmall (byteCount bitLength) raw.length)
  | offset : raw ≠ [] → Sizes type bitLength → byteCount bitLength ≤ raw.length →
      type = some .bool → ¬ (0 ≤ bitOffset ∧ bitOffset ≤ 7) →
      Refuses type bitLength raw bitOffset (.unsupportedType (.inl type) (.bitOffset bitOffset))
  | width {width : Nat} : raw ≠ [] → Sizes type bitLength → byteCount bitLength ≤ raw.length →
      type.bind DataType.width? = some width → bitLength ≠ 8 * width →
      Refuses type bitLength raw bitOffset (.unsupportedType (.inl type) (.width bitLength))

/-- A type and a length that pass have a storage, for which the first checks of decoding do not
fail. -/
theorem Sizes.exists_storage (sizes : Sizes type bitLength) :
    ∃ known storage, type = some known ∧ known.storage? = some storage ∧ ¬ bitLength ≤ 0 ∧
      ¬ (storage ≠ .truth ∧ bitLength % 8 ≠ 0) := by
  obtain ⟨known, listed, rfl⟩ := sizes.known
  obtain ⟨storage, stored⟩ := DataType.mem_supported_iff.mp listed
  refine ⟨known, storage, rfl, stored, Int.not_le.mpr sizes.positive, ?_⟩
  rintro ⟨whole, unaligned⟩
  apply unaligned
  apply sizes.aligned
  rintro ⟨⟩
  cases stored
  exact whole rfl

/-- The codec has values of a type in so many bits exactly if the checks of type and length pass,
and so does the last one of the width. -/
theorem supports_iff_sizes : Supports type bitLength ↔ Sizes type bitLength ∧
    ∀ width, type.bind DataType.width? = some width → bitLength = 8 * width := by
  constructor
  · rintro ⟨known, storage, rfl, stored, fits⟩
    refine ⟨⟨⟨known, DataType.mem_supported_iff.mpr ⟨storage, stored⟩, rfl⟩, fits.positive, ?_⟩, ?_⟩
    · intro whole
      apply fits.aligned
      rintro rfl
      exact whole (congrArg some (DataType.storage?_eq_truth_iff.mp stored))
    · intro width found
      obtain ⟨scalar, isScalar, rfl⟩ := DataType.width?_eq_some_iff.mp found
      cases stored.symm.trans isScalar
      have aligned := fits.aligned nofun
      have widthEq := fits.width scalar rfl
      rw [byteCount] at widthEq
      omega
  · rintro ⟨sizes, widths⟩
    obtain ⟨known, storage, rfl, stored, positive, aligned⟩ := sizes.exists_storage
    refine ⟨known, storage, rfl, stored, by omega, ?_, ?_⟩
    · intro whole
      by_contra unaligned
      exact aligned ⟨whole, unaligned⟩
    · rintro scalar rfl
      have widthEq := widths scalar.width (DataType.width?_eq_some_iff.mpr ⟨scalar, stored, rfl⟩)
      rw [byteCount]
      omega

theorem exists_decode_iff_accepts : (∃ value, decode type bitLength raw bitOffset = .ok value) ↔
    Accepts type bitLength raw bitOffset := by
  rw [exists_decode_iff, supports_iff_sizes]
  constructor
  · rintro ⟨inhabited, ⟨sizes, width⟩, reaches, offset⟩
    exact ⟨sizes, inhabited, reaches, offset, width⟩
  · intro accepts
    exact ⟨accepts.inhabited, ⟨accepts.toSizes, accepts.width⟩, accepts.reaches, accepts.offset⟩

theorem accepts_or_refuses (type : Option DataType) (bitLength : Int) (raw : Bytes)
    (bitOffset : Int) :
    Accepts type bitLength raw bitOffset ∨ ∃ fault, Refuses type bitLength raw bitOffset fault := by
  by_cases inhabited : raw = []
  · exact Or.inr ⟨_, .empty inhabited⟩
  by_cases known : ∃ known ∈ DataType.supported, type = some known
  case neg =>
    refine Or.inr ⟨_, .unknown inhabited ?_⟩
    intro other listed same
    exact known ⟨other, listed, same⟩
  by_cases positive : 0 < bitLength
  case neg => exact Or.inr ⟨_, .zeroLength inhabited known (Int.not_lt.mp positive)⟩
  by_cases aligned : type ≠ some .bool → bitLength % 8 = 0
  case neg =>
    obtain ⟨whole, unaligned⟩ := Classical.not_imp.mp aligned
    exact Or.inr ⟨_, .unaligned inhabited known positive whole unaligned⟩
  have sizes : Sizes type bitLength := ⟨known, positive, aligned⟩
  by_cases reaches : byteCount bitLength ≤ raw.length
  case neg => exact Or.inr ⟨_, .short inhabited sizes (Int.not_le.mp reaches)⟩
  by_cases offset : type = some .bool → 0 ≤ bitOffset ∧ bitOffset ≤ 7
  case neg =>
    obtain ⟨isTruth, outside⟩ := Classical.not_imp.mp offset
    exact Or.inr ⟨_, .offset inhabited sizes reaches isTruth outside⟩
  by_cases widths : ∀ width, type.bind DataType.width? = some width → bitLength = 8 * width
  case neg =>
    push Not at widths
    obtain ⟨width, found, other⟩ := widths
    exact Or.inr ⟨_, .width inhabited sizes reaches found other⟩
  exact Or.inl ⟨sizes, inhabited, reaches, offset, widths⟩

/-- What is left to check once the type is known to have a codec. -/
theorem decode_of_stored (inhabited : raw ≠ []) (stored : known.storage? = some storage) :
    decode (some known) bitLength raw bitOffset =
      if bitLength ≤ 0 then .error (.unsupportedType (.inl (some known)) .zeroLength)
      else if storage ≠ .truth ∧ bitLength % 8 ≠ 0 then
        .error (.unsupportedType (.inl (some known)) (.unaligned bitLength))
      else if (raw.length : Int) < byteCount bitLength then
        .error (.bufferTooSmall (byteCount bitLength) raw.length)
      else
        match storage with
        | .truth =>
            if 0 ≤ bitOffset ∧ bitOffset ≤ 7 then
              .ok ⟨known, Storage.truth.payload (raw.take (byteCount bitLength).toNat) bitOffset⟩
            else .error (.unsupportedType (.inl (some known)) (.bitOffset bitOffset))
        | .scalar scalar =>
            if (scalar.width : Int) ≠ byteCount bitLength then
              .error (.unsupportedType (.inl (some known)) (.width bitLength))
            else .ok ⟨known, (Storage.scalar scalar).payload
              (raw.take (byteCount bitLength).toNat) bitOffset⟩
        | whole =>
            .ok ⟨known, whole.payload (raw.take (byteCount bitLength).toNat) bitOffset⟩ := by
  have notEmpty : ¬ raw.isEmpty = true := by simpa using inhabited
  rw [decode, if_neg notEmpty]
  simp only [Option.bind_some, stored, Option.map_some]
  cases storage <;> rfl

theorem Refuses.decode_eq (refuses : Refuses type bitLength raw bitOffset fault) :
    decode type bitLength raw bitOffset = .error fault := by
  cases refuses with
  | empty none =>
      rw [none]
      rfl
  | unknown inhabited unknown =>
      have notEmpty : ¬ raw.isEmpty = true := by simpa using inhabited
      have missing : (type.bind fun known => known.storage?.map (known, ·)) = none := by
        cases type with
        | none => rfl
        | some known =>
            cases stored : known.storage? with
            | none => simp [stored]
            | some storage =>
                exact absurd rfl (unknown known (DataType.mem_supported_iff.mpr ⟨storage, stored⟩))
      rw [decode, if_neg notEmpty, missing]
  | zeroLength inhabited known short =>
      obtain ⟨known, listed, rfl⟩ := known
      obtain ⟨storage, stored⟩ := DataType.mem_supported_iff.mp listed
      rw [decode_of_stored inhabited stored, if_pos short]
  | unaligned inhabited known positive whole unaligned =>
      obtain ⟨known, listed, rfl⟩ := known
      obtain ⟨storage, stored⟩ := DataType.mem_supported_iff.mp listed
      have notTruth : storage ≠ .truth := by
        rintro rfl
        exact whole (congrArg some (DataType.storage?_eq_truth_iff.mp stored))
      rw [decode_of_stored inhabited stored, if_neg (by omega), if_pos ⟨notTruth, unaligned⟩]
  | short inhabited sizes small =>
      obtain ⟨known, storage, rfl, stored, positive, aligned⟩ := sizes.exists_storage
      rw [decode_of_stored inhabited stored, if_neg positive, if_neg aligned, if_pos small]
  | offset inhabited sizes reaches isTruth outside =>
      obtain ⟨known, storage, rfl, stored, positive, aligned⟩ := sizes.exists_storage
      cases isTruth
      cases stored
      rw [decode_of_stored inhabited rfl, if_neg positive, if_neg aligned, if_neg (by omega)]
      simp only [if_neg outside]
  | width inhabited sizes reaches found other =>
      obtain ⟨known, storage, rfl, stored, positive, aligned⟩ := sizes.exists_storage
      obtain ⟨scalar, isScalar, rfl⟩ := DataType.width?_eq_some_iff.mp found
      cases stored.symm.trans isScalar
      have different : (scalar.width : Int) ≠ byteCount bitLength := by
        have whole : bitLength % 8 = 0 := sizes.aligned (by rintro ⟨⟩; cases stored)
        rw [byteCount]
        omega
      rw [decode_of_stored inhabited stored, if_neg positive, if_neg aligned, if_neg (by omega)]
      simp only [if_pos different]

/-- Decoding fails exactly with the fault of the first check that fails. -/
theorem decode_eq_error_iff : decode type bitLength raw bitOffset = .error fault ↔
    Refuses type bitLength raw bitOffset fault := by
  constructor
  · intro failed
    rcases accepts_or_refuses type bitLength raw bitOffset with accepts | ⟨other, refuses⟩
    · obtain ⟨value, decoded⟩ := exists_decode_iff_accepts.mpr accepts
      cases failed.symm.trans decoded
    · cases failed.symm.trans refuses.decode_eq
      exact refuses
  · exact Refuses.decode_eq

/-- A buffer that is too short is refused before an offset that no byte has. -/
example : decode (some .bool) 9 [1] 8 = .error (.bufferTooSmall 2 1) := rfl

/-- A value is decoded from the bytes of its length, whatever follows them, and but for a truth
value at any offset. -/
theorem decode_of_take_eq {value : Value} {other : Bytes} {otherOffset : Int}
    (decoded : decode type bitLength raw bitOffset = .ok value)
    (same : other.take (byteCount bitLength).toNat = raw.take (byteCount bitLength).toNat)
    (offset : type = some .bool → otherOffset = bitOffset) :
    decode type bitLength other otherOffset = .ok value := by
  obtain ⟨known, storage, rfl, stored, fits, inhabited, reaches, inside⟩ := fits_of_decode decoded
  cases decoded.symm.trans (decode_of_fits stored fits inhabited reaches inside)
  have positive := fits.positive
  have lengthEq := congrArg List.length same
  rw [List.length_take, List.length_take] at lengthEq
  have otherReaches : byteCount bitLength ≤ other.length := by omega
  have otherInhabited : other ≠ [] := by
    apply List.ne_nil_of_length_pos
    rw [byteCount] at otherReaches
    omega
  have offsetEq (isTruth : storage = .truth) : otherOffset = bitOffset := by
    apply offset
    rw [isTruth] at stored
    rw [DataType.storage?_eq_truth_iff.mp stored]
  rw [decode_of_fits stored fits otherInhabited otherReaches
    (fun isTruth => by rw [offsetEq isTruth]; exact inside isTruth), same]
  by_cases isTruth : storage = .truth
  · rw [offsetEq isTruth]
  · rw [Storage.payload_congr isTruth]

section Wording

variable {limits : WritingLimits} {surfaced : Fault} {value : Value}

theorem decodeWithin_eq_ok_iff :
    decodeWithin limits type bitLength raw bitOffset = .ok value ↔
      decode type bitLength raw bitOffset = .ok value :=
  Action.except_mapError_eq_ok_iff

/-- What surfaces when decoding fails is the fault of the first check that fails, worded. -/
theorem decodeWithin_eq_error_iff :
    decodeWithin limits type bitLength raw bitOffset = .error surfaced ↔
      ∃ cause, Refuses type bitLength raw bitOffset cause ∧
        (Fault.codec cause).raised limits = surfaced := by
  simp only [decodeWithin, Action.except_mapError_eq_error_iff, decode_eq_error_iff]

theorem Refuses.payload? (refuses : Refuses type bitLength raw bitOffset fault) :
    (Fault.codec fault).payload? = none := by
  cases refuses <;> rfl

/-- The numbers that a refusal writes are the length and the offset, or no greater than these. -/
theorem Refuses.allows (refuses : Refuses type bitLength raw bitOffset fault)
    (length : limits.allows bitLength = true) (offset : limits.allows bitOffset = true) :
    ∀ number ∈ fault.numbers, limits.allows number = true := by
  cases refuses with
  | short inhabited sizes small =>
      have whole := WritingLimits.allows_byteCount sizes.positive length
      have held : limits.allows raw.length = true :=
        WritingLimits.allows_of_natAbs_le (by omega) whole
      simp [CodecFault.numbers, whole, held]
  | _ => simp [CodecFault.numbers, TypeObjection.numbers, length, offset]

/-- A refusal can be worded if the length and the offset can be written. -/
theorem Refuses.obstacle?_eq_none (refuses : Refuses type bitLength raw bitOffset fault)
    (length : limits.allows bitLength = true) (offset : limits.allows bitOffset = true) :
    (Fault.codec fault).obstacle? limits = none := by
  rw [Fault.obstacle?_eq_none_iff, refuses.payload?]
  exact ⟨refuses.allows length offset, nofun⟩

end Wording

/-- What decoding comes to, told by its checks, where a text can hold so much. -/
structure Judged (limits : WritingLimits) (type : Option DataType) (bitLength : Int) (raw : Bytes)
    (bitOffset : Int) : Prop where
  accepted : (∃ value, decodeWithin limits type bitLength raw bitOffset = .ok value) ↔
    Accepts type bitLength raw bitOffset
  refused : ∀ fault, decodeWithin limits type bitLength raw bitOffset = .error fault ↔
    ∃ cause, Refuses type bitLength raw bitOffset cause ∧
      (Fault.codec cause).raised limits = fault
  /-- Three kinds of faults tell all that decoding fails with, unless the length or the offset has
  too many digits. -/
  kinds : ∀ fault, decodeWithin limits type bitLength raw bitOffset = .error fault →
    fault = .codec .emptyBuffer ∨
      (∃ objection, fault = .codec (.unsupportedType (.inl type) objection)) ∨
      fault = .codec (.bufferTooSmall (byteCount bitLength) raw.length) ∨
      fault = .accident .value ∧
        (limits.allows bitLength = false ∨ limits.allows bitOffset = false)
  /-- Neither the bytes after those of the value count, nor, but for a truth value, the offset. -/
  unaffected : ∀ value other otherOffset,
    decodeWithin limits type bitLength raw bitOffset = .ok value →
      other.take (byteCount bitLength).toNat = raw.take (byteCount bitLength).toNat →
        (type = some .bool → otherOffset = bitOffset) →
          decodeWithin limits type bitLength other otherOffset = .ok value

end Value

end Fieldbus
