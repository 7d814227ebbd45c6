import Fieldbus.Proofs.Number.Widening
import Fieldbus.Proofs.Text.WellFormed
import Fieldbus.Proofs.Value.RoundTrip

/-!
# Encoding and decoding undo each other

Every payload in the range of its type has an encoding, which is decoded to the payload.  The
other way around, every value that was decoded is encoded again.  Integers and raw bytes are
encoded to the bytes that they were decoded from, and so is a text if these were well-formed.
Where bytes were replaced while reading, reading the encoding replaces nothing more.
-/

namespace Fieldbus

namespace Bytes

theorem toNat_lt (bytes : Bytes) : bytes.toNat < 256 ^ bytes.length := by
  induction bytes with
  | nil => exact Nat.one_pos
  | cons byte rest ih =>
      have small := byte.toNat_lt
      rw [toNat, List.length_cons, Nat.pow_succ]
      omega

theorem ofNat_toNat (bytes : Bytes) : ofNat bytes.length bytes.toNat = bytes := by
  induction bytes with
  | nil => rfl
  | cons byte rest ih =>
      have small := byte.toNat_lt
      have first : UInt8.ofNat (byte.toNat + 256 * toNat rest) = byte := by
        rw [UInt8.ofNat_add, UInt8.ofNat_mul, UInt8.ofNat_toNat]
        simp
      have more : (byte.toNat + 256 * toNat rest) / 256 = toNat rest := by omega
      rw [toNat, List.length_cons, ofNat, first, more, ih]

theorem two_mul_half {width : Nat} (positive : 0 < width) :
    2 * (256 ^ width / 2) = 256 ^ width := by
  obtain ⟨width, rfl⟩ := Nat.exists_eq_succ_of_ne_zero positive.ne'
  rw [Nat.pow_succ]
  omega

theorem toInt_range {bytes : Bytes} (inhabited : 0 < bytes.length) :
    -((256 ^ bytes.length / 2 : Nat) : Int) ≤ bytes.toInt ∧
      bytes.toInt < ((256 ^ bytes.length / 2 : Nat) : Int) := by
  have below := bytes.toNat_lt
  have halves := two_mul_half inhabited
  rw [toInt]
  simp only [Nat.pow_eq]
  split <;> omega

theorem ofInt_toInt (bytes : Bytes) : ofInt bytes.length bytes.toInt = bytes := by
  have below := bytes.toNat_lt
  have wrapped : (bytes.toInt % (256 ^ bytes.length : Nat)).toNat = bytes.toNat := by
    rw [toInt]
    simp only [Nat.pow_eq]
    split
    · rw [Int.emod_eq_of_lt (by omega) (by omega), Int.toNat_natCast]
    · rw [← Int.add_emod_right, Int.sub_add_cancel, Int.emod_eq_of_lt (by omega) (by omega),
        Int.toNat_natCast]
  rw [ofInt, Nat.pow_eq, wrapped, ofNat_toNat]

end Bytes

namespace Scalar

variable {scalar : Scalar} {data : Bytes}

theorem encode_float32 {number : Binary64} {pattern : Nat}
    (narrowed : number.toBinary32? = some pattern) :
    float32.encode (.real number) = .ok (Bytes.ofNat 4 pattern) := by
  unfold encode
  simp only [real?, Option.bind_some, narrowed]

/-- The number that was found in bytes of the right width is encoded again: to the same bytes,
but for the bits of a binary32 NaN, which is made quiet. -/
theorem exists_encode_decode (lengthEq : data.length = scalar.width) (positive : 0 < scalar.width) :
    ∃ again, scalar.encode (scalar.decode data) = .ok again ∧ again.length = scalar.width ∧
      scalar.decode again = scalar.decode data ∧ (scalar ≠ .float32 → again = data) := by
  have below := data.toNat_lt
  have inhabited : 0 < data.length := lengthEq ▸ positive
  rw [lengthEq] at below
  cases scalar with
  | unsigned width =>
      have same : Bytes.ofNat width data.toNat = data := by
        rw [← show data.length = width from lengthEq, Bytes.ofNat_toNat]
      have inside : 0 ≤ (data.toNat : Int) ∧ (data.toNat : Int) < (Nat.pow 256 width : Nat) :=
        ⟨Int.natCast_nonneg _, Int.ofNat_lt.mpr below⟩
      refine ⟨data, ?_, lengthEq, rfl, fun _ => rfl⟩
      rw [decode, encode_unsigned, if_pos inside, Int.toNat_natCast, same]
  | signed width =>
      have widthEq : data.length = width := lengthEq
      have inside := Bytes.toInt_range inhabited
      have same := Bytes.ofInt_toInt data
      rw [widthEq] at inside same
      refine ⟨data, ?_, lengthEq, rfl, fun _ => rfl⟩
      rw [decode, encode_signed, Nat.pow_eq, if_pos inside, same]
  | float32 =>
      have word : 256 ^ 4 = 2 ^ 32 := by decide
      rw [show float32.width = 4 from rfl, word] at below
      obtain ⟨narrow, narrowed, small, widened⟩ := Binary64.exists_toBinary32?_ofBinary32 below
      refine ⟨Bytes.ofNat 4 narrow, encode_float32 narrowed, Bytes.length_ofNat _ _, ?_,
        fun other => absurd rfl other⟩
      rw [decode, decode, Bytes.toNat_ofNat, word, Nat.mod_eq_of_lt small, widened]
  | float64 =>
      have bits : (UInt64.ofNat data.toNat).toNat = data.toNat := UInt64.toNat_ofNat_of_lt' below
      have same : Bytes.ofNat 8 data.toNat = data := by
        rw [← show data.length = 8 from lengthEq, Bytes.ofNat_toNat]
      refine ⟨data, ?_, lengthEq, rfl, fun _ => rfl⟩
      rw [decode, encode_float64]
      simp only [bits, same]

end Scalar

theorem Utf8.decodeLossy_ne_nil {bytes : Bytes} (inhabited : bytes ≠ []) :
    decodeLossy bytes ≠ [] := by
  cases bytes with
  | nil => exact absurd rfl inhabited
  | cons byte rest =>
      rw [decodeLossy, pieces, List.length_cons, piecesWithin]
      simp

theorem Utf8.encodeChars_eq_nil_iff {chars : List Char} : encodeChars chars = [] ↔ chars = [] := by
  cases chars with
  | nil => simp [encodeChars]
  | cons c chars =>
      have inhabited := length_encodeChar_pos c
      simp only [encodeChars, List.flatMap_cons, List.append_eq_nil_iff, reduceCtorEq, iff_false,
        not_and]
      intro empty
      simp [empty] at inhabited

/-- The payloads that a storage holds in at least one byte: both truth values at the offsets
inside a byte, texts of characters, all bytes, the numbers in the range of an integer, and all
binary64 numbers. -/
def Storage.Takes (offset : Int) : Storage → Payload → Prop
  | .truth, .bool _ => 0 ≤ offset ∧ offset ≤ 7
  | .text, .text content => ∃ chars, chars ≠ [] ∧ content = Text.ofChars chars
  | .raw, .bytes content | .raw, .buffer content => content ≠ []
  | .scalar (.unsigned width), .int number => 0 ≤ number ∧ number < (256 ^ width : Nat)
  | .scalar (.signed width), .int number =>
      -(256 ^ width / 2 : Nat) ≤ number ∧ number < (256 ^ width / 2 : Nat)
  | .scalar .float64, .real _ => True
  | _, _ => False

namespace Value

/-- The values that have an encoding of at least one byte and come back from it as they were. -/
def Encodable (value : Value) (offset : Int) : Prop :=
  ∃ storage, value.dataType.storage? = some storage ∧ storage.Takes offset value.payload

variable {value : Value} {storage : Storage} {data : Bytes} {offset : Int}

theorem fits_of_length (inhabited : data ≠ [])
    (width : ∀ scalar, storage = .scalar scalar → data.length = scalar.width) :
    Fits storage (8 * data.length) := by
  have positive : 0 < data.length := List.length_pos_iff.mpr inhabited
  refine ⟨by omega, fun _ => by omega, ?_⟩
  intro scalar same
  have lengthEq := width scalar same
  rw [byteCount]
  omega

theorem decode_whole {type : DataType} {bitLength : Int} (stored : type.storage? = some storage)
    (inhabited : data ≠ []) (fits : Fits storage bitLength)
    (whole : byteCount bitLength = data.length)
    (inside : storage = .truth → 0 ≤ offset ∧ offset ≤ 7) :
    decode (some type) bitLength data offset = .ok ⟨type, storage.payload data offset⟩ := by
  rw [decode_of_fits stored fits inhabited whole.le inside, whole, Int.toNat_natCast,
    List.take_length]

theorem byteCount_eight_mul (length : Nat) : byteCount (8 * length) = length := by
  rw [byteCount]
  omega

end Value

namespace Storage

variable {storage : Storage} {payload : Payload} {data : Bytes} {offset : Int}

theorem Holds.truth_inside (holds : storage.Holds offset payload data)
    (isTruth : storage = .truth) :
    data.length = 1 ∧ 0 ≤ offset ∧ offset ≤ 7 := by
  cases holds with
  | truth above below => exact ⟨rfl, above, below⟩
  | _ => cases isTruth

theorem Keeps.takes_of_encode {number : Scalar} (keeps : (scalar number).Keeps payload)
    (written : number.encode payload = .ok data) : (scalar number).Takes offset payload := by
  cases number with
  | unsigned width =>
      cases payload with
      | int number =>
          rw [Scalar.encode_unsigned] at written
          split at written
          · rename_i inside
            exact inside
          · cases written
      | _ => cases written
  | signed width =>
      cases payload with
      | int number =>
          rw [Scalar.encode_signed] at written
          split at written
          · rename_i inside
            exact inside
          · cases written
      | _ => cases written
  | float32 =>
      rcases keeps _ rfl with integer | ⟨other, _⟩
      · cases integer
      · cases other
  | float64 =>
      rcases keeps _ rfl with integer | ⟨_, number, rfl⟩
      · cases integer
      · trivial

/-- The payloads that come back have an encoding of at least one byte exactly if they are in the
range of the storage. -/
theorem exists_holds_iff (positive : ∀ scalar, storage = .scalar scalar → 0 < scalar.width)
    (keeps : storage.Keeps payload) :
    (∃ data, storage.Holds offset payload data ∧ data ≠ []) ↔ storage.Takes offset payload := by
  constructor
  · rintro ⟨data, holds, inhabited⟩
    cases holds with
    | truth above below => exact ⟨above, below⟩
    | text =>
        refine ⟨_, ?_, rfl⟩
        rintro rfl
        exact inhabited rfl
    | bytes => exact inhabited
    | buffer => exact inhabited
    | scalar written => exact keeps.takes_of_encode written
  · intro takes
    have longEnough (scalar : Scalar) (same : storage = .scalar scalar) {data : Bytes}
        (lengthEq : data.length = scalar.width) : data ≠ [] := by
      have := positive scalar same
      rintro rfl
      rw [List.length_nil] at lengthEq
      omega
    cases storage with
    | truth =>
        cases payload with
        | bool truth => exact ⟨_, .truth takes.1 takes.2, List.cons_ne_nil _ _⟩
        | _ => cases takes
    | text =>
        cases payload with
        | text content =>
            obtain ⟨chars, inhabited, rfl⟩ := takes
            exact ⟨_, .text, fun empty => inhabited (Utf8.encodeChars_eq_nil_iff.mp empty)⟩
        | _ => cases takes
    | raw =>
        cases payload with
        | bytes content => exact ⟨_, .bytes, takes⟩
        | buffer content => exact ⟨_, .buffer, takes⟩
        | _ => cases takes
    | scalar scalar =>
        cases scalar with
        | unsigned width =>
            cases payload with
            | int number =>
                refine ⟨_, .scalar ?_, longEnough _ rfl (Bytes.length_ofNat width number.toNat)⟩
                exact (Scalar.encode_unsigned width number).trans (if_pos takes)
            | _ => cases takes
        | signed width =>
            cases payload with
            | int number =>
                refine ⟨_, .scalar ?_, longEnough _ rfl (Bytes.length_ofInt width number)⟩
                exact (Scalar.encode_signed width number).trans (if_pos takes)
            | _ => cases takes
        | float32 => cases payload <;> cases takes
        | float64 =>
            cases payload with
            | real number =>
                exact ⟨_, .scalar (Scalar.encode_float64 number),
                  longEnough _ rfl (Bytes.length_ofNat _ _)⟩
            | _ => cases takes

end Storage

theorem DataType.width_pos {type : DataType} {scalar : Scalar}
    (stored : type.storage? = some (.scalar scalar)) : 0 < scalar.width := by
  cases type <;> cases stored <;> decide

namespace Value

variable {value : Value} {offset : Int}

theorem exists_storage_of_kept
    (kept : value.dataType ∈ DataType.exact ∨
      value.dataType = .f64 ∧ ∃ number, value.payload = .real number) :
    ∃ storage, value.dataType.storage? = some storage ∧ storage.Keeps value.payload := by
  rcases kept with exact | ⟨isFloat, number, payload⟩
  · obtain ⟨storage, stored, integer⟩ := DataType.exists_storage_of_exact exact
    exact ⟨storage, stored, fun scalar same => Or.inl (integer scalar same)⟩
  · refine ⟨.scalar .float64, by rw [isFloat]; rfl, ?_⟩
    rintro scalar ⟨⟩
    exact Or.inr ⟨rfl, number, payload⟩

/-- Truth values at all offsets inside a byte, integers, texts, raw bytes and binary64 numbers
have an encoding exactly if they are in the range of their type, and decoding it gives them
back. -/
theorem decode_encoded
    (kept : value.dataType ∈ DataType.exact ∨
      value.dataType = .f64 ∧ ∃ number, value.payload = .real number) :
    ((∃ data, value.encode offset = .ok data ∧ data ≠ []) ↔ value.Encodable offset) ∧
      ∀ data, value.encode offset = .ok data → data ≠ [] →
        decode (some value.dataType) (if value.dataType = .bool then 1 else 8 * data.length)
          data offset = .ok ⟨value.dataType, value.payload.settled⟩ := by
  obtain ⟨storage, stored, keeps⟩ := exists_storage_of_kept kept
  constructor
  · have positive (scalar : Scalar) (same : storage = .scalar scalar) : 0 < scalar.width :=
      DataType.width_pos (same ▸ stored)
    simp only [encode_eq_ok_iff stored, Storage.exists_holds_iff positive keeps, Encodable, stored,
      Option.some.injEq, exists_eq_left']
  · intro data encoded inhabited
    have holds := (encode_eq_ok_iff stored).mp encoded
    obtain ⟨width, payloadEq⟩ := holds.payload_eq keeps
    rw [← payloadEq]
    by_cases isTruth : value.dataType = .bool
    · have storageEq : storage = .truth := by
        rw [isTruth] at stored
        exact (Option.some.inj stored).symm
      obtain ⟨one, inside⟩ := holds.truth_inside storageEq
      have fits : Fits storage 1 :=
        ⟨by decide, fun other => absurd storageEq other, fun _ same => by cases storageEq ▸ same⟩
      rw [if_pos isTruth, decode_whole stored inhabited fits (by rw [one]; rfl) fun _ => inside]
    · have notTruth : storage ≠ .truth := by
        rintro rfl
        exact isTruth (DataType.storage?_eq_truth_iff.mp stored)
      rw [if_neg isTruth, decode_whole stored inhabited (fits_of_length inhabited width)
        (byteCount_eight_mul _) fun same => absurd same notTruth]

/-- Two's complement is read back below zero. -/
theorem decode_encoded_minus_two :
    decode (some .i16) 16 [0xfe, 0xff] 0 = .ok ⟨.i16, .int (-2)⟩ :=
  (decode_encoded (.inl (by decide) : (Value.mk .i16 (.int (-2))).dataType ∈ _ ∨ _)).2
    [0xfe, 0xff] rfl (by decide)

end Value

/-- The bytes that a payload was read from, and the bytes that stand for it. -/
theorem Storage.exists_holds_payload {storage : Storage} {taken : Bytes} {offset : Int}
    (inhabited : taken ≠ [])
    (width : ∀ scalar, storage = .scalar scalar → taken.length = scalar.width)
    (inside : storage = .truth → 0 ≤ offset ∧ offset ≤ 7) (bitOffset : Int) :
    ∃ data, storage.Holds offset (storage.payload taken bitOffset) data ∧ data ≠ [] ∧
      (∀ scalar, storage = .scalar scalar → data.length = scalar.width) ∧
      storage.payload data offset = storage.payload taken bitOffset ∧
      (storage ∉ [.truth, .text, .scalar .float32] → data = taken) ∧
      (storage = .text → (data = taken ↔ Utf8.WellFormed taken)) := by
  cases storage with
  | truth =>
      obtain ⟨above, below⟩ := inside rfl
      refine ⟨_, .truth above below, List.cons_ne_nil _ _, by rintro _ ⟨⟩, ?_, ?_, by rintro ⟨⟩⟩
      · rw [payload, truth_of_bit _ (by omega)]
        rfl
      · intro other
        exact absurd List.mem_cons_self other
  | text =>
      refine ⟨_, .text, ?_, by rintro _ ⟨⟩, ?_, ?_, fun _ => Utf8.encodeChars_decodeLossy_iff⟩
      · exact fun empty => Utf8.decodeLossy_ne_nil inhabited (Utf8.encodeChars_eq_nil_iff.mp empty)
      · rw [payload, payload, Utf8.decodeLossy_encodeChars]
      · intro other
        exact absurd (List.mem_cons_of_mem _ List.mem_cons_self) other
  | raw => exact ⟨taken, .bytes, inhabited, by rintro _ ⟨⟩, rfl, fun _ => rfl, by rintro ⟨⟩⟩
  | scalar scalar =>
      have lengthEq := width scalar rfl
      have positive : 0 < scalar.width := lengthEq ▸ List.length_pos_iff.mpr inhabited
      obtain ⟨again, written, againLength, same, exact⟩ :=
        Scalar.exists_encode_decode lengthEq positive
      refine ⟨again, .scalar written, ?_, ?_, same, ?_, by rintro ⟨⟩⟩
      · exact List.length_pos_iff.mp (againLength ▸ positive)
      · rintro _ ⟨⟩
        exact againLength
      · intro other
        apply exact
        rintro rfl
        exact other (by decide)

theorem DataType.mem_of_storage {type : DataType} {storage : Storage}
    (stored : type.storage? = some storage) (member : storage ∈ [.truth, .text, .scalar .float32]) :
    type ∈ [.bool, .string, .f32] := by
  cases type <;> cases stored <;> revert member <;> decide

namespace Value

variable {value : Value} {type : Option DataType} {bitLength bitOffset offset : Int} {raw : Bytes}

/-- Every value that was decoded has an encoding, which is decoded to the same value.  It is made
of the bytes that were decoded, unless the value is a truth value or a binary32 number, or a text
for which malformed bytes were replaced. -/
theorem encode_decoded (decoded : decode type bitLength raw bitOffset = .ok value)
    (inside : value.dataType = .bool → 0 ≤ offset ∧ offset ≤ 7) :
    type = some value.dataType ∧
      ∃ data, value.encode offset = .ok data ∧
        decode (some value.dataType) (8 * data.length) data offset = .ok value ∧
        (value.dataType ∉ [.bool, .string, .f32] → data = raw.take (byteCount bitLength).toNat) ∧
        (value.dataType = .string →
          (data = raw.take (byteCount bitLength).toNat ↔
            Utf8.WellFormed (raw.take (byteCount bitLength).toNat))) := by
  obtain ⟨known, storage, rfl, stored, fits, inhabited, reaches, within⟩ := fits_of_decode decoded
  rw [decode_of_fits stored fits inhabited reaches within] at decoded
  cases decoded
  have positive := fits.positive
  have storedInside (isTruth : storage = .truth) : 0 ≤ offset ∧ offset ≤ 7 :=
    inside (DataType.storage?_eq_truth_iff.mp (isTruth ▸ stored))
  obtain ⟨taken, takenEq⟩ : ∃ taken, taken = raw.take (byteCount bitLength).toNat := ⟨_, rfl⟩
  have takenLength : (taken.length : Int) = byteCount bitLength := by
    rw [takenEq, List.length_take]
    rw [byteCount] at reaches ⊢
    omega
  have takenInhabited : taken ≠ [] := by
    rw [byteCount] at takenLength
    exact List.length_pos_iff.mp (by omega)
  have takenWidth (scalar : Scalar) (same : storage = .scalar scalar) :
      taken.length = scalar.width := by
    have := fits.width scalar same
    omega
  rw [← takenEq]
  obtain ⟨data, holds, dataInhabited, dataWidth, same, exact, wellFormed⟩ :=
    Storage.exists_holds_payload takenInhabited takenWidth storedInside bitOffset
  refine ⟨rfl, data, (encode_eq_ok_iff stored).mpr holds, ?_, ?_, ?_⟩
  · rw [decode_whole stored dataInhabited (fits_of_length dataInhabited dataWidth)
      (byteCount_eight_mul _) storedInside, same]
  · intro other
    apply exact
    intro member
    exact other (DataType.mem_of_storage stored member)
  · rintro rfl
    exact wellFormed (Option.some.inj stored).symm

/-- A sequence that is cut short is replaced, and is not written again. -/
theorem encode_decoded_cut_short :
    ∃ data, encode ⟨.string, .text (Text.ofChars ['a', '\ufffd'])⟩ 0 = .ok data ∧
      decode (some .string) (8 * data.length) data 0 =
        .ok ⟨.string, .text (Text.ofChars ['a', '\ufffd'])⟩ ∧
      data ≠ [0x61, 0xe2, 0x82] := by
  obtain ⟨_, data, encoded, again, _, kept⟩ := encode_decoded
    (show decode (some .string) 24 [0x61, 0xe2, 0x82] 0 =
      .ok ⟨.string, .text (Text.ofChars ['a', '\ufffd'])⟩ from rfl)
    (fun _ => show 0 ≤ (0 : Int) ∧ (0 : Int) ≤ 7 by decide)
  refine ⟨data, encoded, again, ?_⟩
  intro same
  exact absurd ((kept rfl).mp same) (by decide)

end Value

end Fieldbus
