import Fieldbus.Proofs.Value.Checks
import Fieldbus.Proofs.Value.Inverse

/-!
# What is encoded, and what is refused

Encoding takes a truth value at an offset inside a byte, an integer in the range of its type, raw
bytes, and a text without unpaired surrogates.  What it does not take it refuses, with two
exceptions: a text with an unpaired surrogate meets an accident, and so does a refusal that cannot
be worded.  The main statement says so for all values and offsets.
-/

namespace Fieldbus

theorem Text.chars?_eq_none_iff {text : Text} :
    text.chars? = none ↔ ∃ code, TextUnit.surrogate code ∈ text := by
  induction text with
  | nil => simp [chars?]
  | cons unit rest ih =>
      cases unit with
      | scalar c => simp [chars?, ih]
      | surrogate code => simp [chars?]

namespace Storage

variable {width : Nat} {offset : Int} {payload : Payload}

theorem takes_unsigned_iff : (scalar (.unsigned width)).Takes offset payload ↔
    ∃ number, payload = .int number ∧ 0 ≤ number ∧ number < (256 ^ width : Nat) := by
  cases payload <;> simp [Takes]

theorem takes_signed_iff : (scalar (.signed width)).Takes offset payload ↔
    ∃ number, payload = .int number ∧ -(256 ^ width / 2 : Nat) ≤ number ∧
      number < (256 ^ width / 2 : Nat) := by
  cases payload <;> simp [Takes]

end Storage

namespace DataType

def range? : DataType → Option (Int × Int)
  | .byte | .u8 => some (0, 0xff)
  | .u16 => some (0, 0xffff)
  | .u32 => some (0, 0xffffffff)
  | .u64 => some (0, 0xffffffffffffffff)
  | .i8 => some (-0x80, 0x7f)
  | .i16 => some (-0x8000, 0x7fff)
  | .i32 => some (-0x80000000, 0x7fffffff)
  | .i64 => some (-0x8000000000000000, 0x7fffffffffffffff)
  | _ => none

theorem exists_scalar_of_range? {type : DataType} {low high : Int}
    (ranged : type.range? = some (low, high)) :
    ∃ scalar, type.storage? = some (.scalar scalar) ∧ scalar.IsInteger ∧ 0 < scalar.width ∧
      type.width? = some scalar.width ∧ ∀ offset payload,
        (Storage.scalar scalar).Takes offset payload ↔
          ∃ number, payload = .int number ∧ low ≤ number ∧ number ≤ high := by
  cases type with
  | byte | u8 | u16 | u32 | u64 =>
      cases ranged
      refine ⟨_, rfl, trivial, by decide, rfl, ?_⟩
      intro offset payload
      rw [Storage.takes_unsigned_iff]
      refine exists_congr fun number => and_congr_right fun _ => ?_
      omega
  | i8 | i16 | i32 | i64 =>
      cases ranged
      refine ⟨_, rfl, trivial, by decide, rfl, ?_⟩
      intro offset payload
      rw [Storage.takes_signed_iff]
      refine exists_congr fun number => and_congr_right fun _ => ?_
      omega
  | _ => cases ranged

end DataType

namespace Scalar
theorem encode_float32_eq (payload : Payload) : float32.encode payload =
    match payload with
    | .int _ | .real _ =>
        match (real? payload).bind Binary64.toBinary32? with
        | some pattern => .ok (Bytes.ofNat 4 pattern)
        | none => .error .outOfRange
    | _ => .error .needsNumber := by
  unfold encode
  rfl

theorem encode_float64_eq (payload : Payload) : float64.encode payload =
    match payload with
    | .int _ | .real _ =>
        match real? payload with
        | some value => .ok (Bytes.ofNat 8 value.bits.toNat)
        | none => .error .outOfRange
    | _ => .error .needsNumber := by
  unfold encode
  rfl

/-- What is wrong with a number is told without one. -/
theorem numbers_of_encode {scalar : Scalar} {payload : Payload}
    {objection : ValueObjection} (unstored : scalar.encode payload = .error objection) :
    objection.numbers = [] := by
  cases scalar with
  | unsigned width =>
      cases payload with
      | int number =>
          rw [encode_unsigned] at unstored
          split at unstored
          · cases unstored
          · cases unstored
            rfl
      | _ =>
          cases unstored
          rfl
  | signed width =>
      cases payload with
      | int number =>
          rw [encode_signed] at unstored
          split at unstored
          · cases unstored
          · cases unstored
            rfl
      | _ =>
          cases unstored
          rfl
  | float32 =>
      rw [encode_float32_eq] at unstored
      generalize (real? payload).bind Binary64.toBinary32? = found at unstored
      cases payload <;> cases found <;> cases unstored <;> rfl
  | float64 =>
      rw [encode_float64_eq] at unstored
      generalize real? payload = found at unstored
      cases payload <;> cases found <;> cases unstored <;> rfl
end Scalar

namespace Value

variable {value : Value} {bitOffset : Int} {fault : Fault} {data : Bytes} {low high : Int}

/-- A text with an unpaired surrogate, where a text is expected. -/
def IsUnencodable (value : Value) : Prop :=
  value.dataType = .string ∧ ∃ text, value.payload = .text text ∧ text.chars? = none

theorem IsUnencodable.encode_eq (unencodable : value.IsUnencodable) (bitOffset : Int) :
    value.encode bitOffset = .error (.accident .encoding) := by
  obtain ⟨isText, text, payload, surrogate⟩ := unencodable
  have unwritten : Utf8.encode? text = none := by
    rw [Utf8.encode?, surrogate, Option.map_none]
  rw [encode, isText, payload]
  simp only [DataType.storage?, unwritten]

/-- Encoding refuses the value that it is given, or meets a text without an encoding. -/
theorem encode_error_cases (failed : value.encode bitOffset = .error fault) :
    (∃ objection, fault = .codec (.unsupportedValue value objection)) ∨
      fault = .accident .encoding ∧ value.IsUnencodable := by
  rw [encode] at failed
  split at failed
  · cases failed
    exact Or.inl ⟨_, rfl⟩
  · split at failed
    · split at failed
      · cases failed
      · cases failed
        exact Or.inl ⟨_, rfl⟩
    · cases failed
      exact Or.inl ⟨_, rfl⟩
  · rename_i stored
    have isText : value.dataType = .string := by
      revert stored
      cases value.dataType <;> simp [DataType.storage?]
    split at failed
    · rename_i text payload
      split at failed
      · cases failed
      · rename_i unwritten
        cases failed
        exact Or.inr ⟨rfl, isText, text, payload, Option.map_eq_none_iff.mp unwritten⟩
    · cases failed
      exact Or.inl ⟨_, rfl⟩
  · split at failed
    · cases failed
    · cases failed
    · cases failed
      exact Or.inl ⟨_, rfl⟩
  · split at failed
    · cases failed
    · cases failed
      exact Or.inl ⟨_, rfl⟩

section Taken

variable {storage : Storage}

theorem exists_encode_iff (stored : value.dataType.storage? = some storage) :
    (∃ data, value.encode bitOffset = .ok data) ↔
      ∃ data, storage.Holds bitOffset value.payload data :=
  exists_congr fun _ => encode_eq_ok_iff stored

theorem exists_encode_truth_iff (isTruth : value.dataType = .bool) :
    (∃ data, value.encode bitOffset = .ok data) ↔
      (∃ truth, value.payload = .bool truth) ∧ 0 ≤ bitOffset ∧ bitOffset ≤ 7 := by
  have stored : value.dataType.storage? = some .truth := by rw [isTruth]; rfl
  rw [exists_encode_iff stored]
  generalize value.payload = payload
  constructor
  · rintro ⟨data, holds⟩
    cases holds with
    | truth above below => exact ⟨⟨_, rfl⟩, above, below⟩
  · rintro ⟨⟨truth, rfl⟩, above, below⟩
    exact ⟨_, .truth above below⟩

theorem exists_encode_raw_iff
    (isRaw : value.dataType = .octetString ∨ value.dataType = .domain) :
    (∃ data, value.encode bitOffset = .ok data) ↔
      ∃ content, value.payload = .bytes content ∨ value.payload = .buffer content := by
  have stored : value.dataType.storage? = some .raw := by
    rcases isRaw with same | same <;> rw [same] <;> rfl
  rw [exists_encode_iff stored]
  generalize value.payload = payload
  constructor
  · rintro ⟨data, holds⟩
    cases holds with
    | bytes => exact ⟨_, Or.inl rfl⟩
    | buffer => exact ⟨_, Or.inr rfl⟩
  · rintro ⟨content, rfl | rfl⟩
    · exact ⟨_, .bytes⟩
    · exact ⟨_, .buffer⟩

theorem exists_encode_text_iff (isText : value.dataType = .string) :
    (∃ data, value.encode bitOffset = .ok data) ↔
      ∃ text, value.payload = .text text ∧ ∀ code, TextUnit.surrogate code ∉ text := by
  have stored : value.dataType.storage? = some .text := by rw [isText]; rfl
  rw [exists_encode_iff stored]
  generalize value.payload = payload
  constructor
  · rintro ⟨data, holds⟩
    cases holds with
    | @text chars => exact ⟨_, rfl, by simp [Text.ofChars]⟩
  · rintro ⟨text, rfl, whole⟩
    obtain ⟨chars, found⟩ : ∃ chars, text.chars? = some chars := by
      rw [← Option.ne_none_iff_exists', ne_eq, Text.chars?_eq_none_iff, not_exists]
      exact whole
    rw [← Text.ofChars_of_chars? found]
    exact ⟨_, .text⟩

/-- An integer in the range of its type is encoded, in the bytes of its width, and nothing else
is. -/
theorem exists_encode_integer_iff (ranged : value.dataType.range? = some (low, high)) :
    ((∃ data, value.encode bitOffset = .ok data) ↔
        ∃ number, value.payload = .int number ∧ low ≤ number ∧ number ≤ high) ∧
      ∀ data, value.encode bitOffset = .ok data → value.dataType.width? = some data.length := by
  obtain ⟨scalar, stored, integer, positive, widthEq, takes⟩ :=
    DataType.exists_scalar_of_range? ranged
  have keeps : (Storage.scalar scalar).Keeps value.payload := by
    rintro _ ⟨⟩
    exact Or.inl integer
  have width (data : Bytes) (holds : (Storage.scalar scalar).Holds bitOffset value.payload data) :
      data.length = scalar.width :=
    (holds.payload_eq keeps).1 scalar rfl
  have inhabited : (∃ data, (Storage.scalar scalar).Holds bitOffset value.payload data) ↔
      ∃ data, (Storage.scalar scalar).Holds bitOffset value.payload data ∧ data ≠ [] := by
    refine exists_congr fun data => (and_iff_left_of_imp ?_).symm
    intro holds
    apply List.ne_nil_of_length_pos
    rw [width data holds]
    exact positive
  refine ⟨?_, ?_⟩
  · rw [exists_encode_iff stored, inhabited, Storage.exists_holds_iff _ keeps, takes]
    rintro _ ⟨⟩
    exact positive
  · intro data encoded
    rw [width data ((encode_eq_ok_iff stored).mp encoded), widthEq]

end Taken

section Wording

variable {limits : WritingLimits} {objection : ValueObjection}

theorem objection_of_truth {truth : Bool} (isTruth : value.dataType = .bool)
    (payload : value.payload = .bool truth)
    (refused : value.encode bitOffset = .error (.codec (.unsupportedValue value objection))) :
    objection = .bitOffset bitOffset := by
  rw [encode, isTruth, payload] at refused
  simp only [DataType.storage?] at refused
  split at refused
  · cases refused
  · cases refused
    rfl

/-- A refusal writes a number only if it is the offset of a truth value. -/
theorem numbers_of_refused
    (refused : value.encode bitOffset = .error (.codec (.unsupportedValue value objection))) :
    objection.numbers = [] ∨
      objection = .bitOffset bitOffset ∧ value.dataType = .bool ∧
        ∃ truth, value.payload = .bool truth := by
  rw [encode] at refused
  split at refused
  · cases refused
    exact Or.inl rfl
  · rename_i stored
    have isTruth := DataType.storage?_eq_truth_iff.mp stored
    split at refused
    · rename_i truth payload
      split at refused
      · cases refused
      · cases refused
        exact Or.inr ⟨rfl, isTruth, truth, payload⟩
    · cases refused
      exact Or.inl rfl
  · split at refused
    · split at refused
      · cases refused
      · cases refused
    · cases refused
      exact Or.inl rfl
  · split at refused
    · cases refused
    · cases refused
    · cases refused
      exact Or.inl rfl
  · split at refused
    · cases refused
    · rename_i unstored
      cases refused
      exact Or.inl (Scalar.numbers_of_encode unstored)

/-- A value that is not encoded could be refused only with a text that holds more than it can. -/
def Outgrows (limits : WritingLimits) (value : Value) (bitOffset : Int) : Prop :=
  (¬ ∃ data, value.encode bitOffset = .ok data) ∧
    (limits.payload? 0 value.payload ≠ none ∨
      value.dataType = .bool ∧ (∃ truth, value.payload = .bool truth) ∧
        limits.allows bitOffset = false)

/-- A refusal cannot be worded exactly if the value outgrows the limits. -/
theorem outgrows_iff_of_refused
    (refused : value.encode bitOffset = .error (.codec (.unsupportedValue value objection))) :
    value.Outgrows limits bitOffset ↔
      (Fault.codec (.unsupportedValue value objection)).obstacle? limits ≠ none := by
  have unencoded : ¬ ∃ data, value.encode bitOffset = .ok data := by
    rintro ⟨data, encoded⟩
    cases refused.symm.trans encoded
  rw [Outgrows, and_iff_right unencoded, Ne, Ne, Fault.obstacle?_eq_none_iff]
  simp only [Fault.payload?, Option.some.injEq, forall_eq']
  rw [not_and_or, or_comm]
  refine or_congr ?_ Iff.rfl
  rcases numbers_of_refused refused with none | ⟨rfl, isTruth, isBool⟩
  · have plain : ¬ (value.dataType = .bool ∧ (∃ truth, value.payload = .bool truth) ∧
        limits.allows bitOffset = false) := by
      rintro ⟨isTruth, ⟨truth, payload⟩, _⟩
      rw [objection_of_truth isTruth payload refused] at none
      cases none
    simp only [Fault.numbers, CodecFault.numbers, none, List.not_mem_nil, false_implies,
      implies_true, not_true_eq_false, plain]
  · simp [Fault.numbers, CodecFault.numbers, ValueObjection.numbers, isTruth, isBool]

end Wording

/-- Encoding returns bytes or refuses the value. -/
def Settles (limits : WritingLimits) (value : Value) (bitOffset : Int) : Prop :=
  (∃ data, value.encodeWithin limits bitOffset = .ok data) ∨
    ∃ objection, value.encodeWithin limits bitOffset =
      .error (.codec (.unsupportedValue value objection))

/-- What is encoded, type by type. -/
structure Weighed (value : Value) (bitOffset : Int) : Prop where
  truth : value.dataType = .bool → ((∃ data, value.encode bitOffset = .ok data) ↔
    (∃ truth, value.payload = .bool truth) ∧ 0 ≤ bitOffset ∧ bitOffset ≤ 7)
  integer : ∀ low high, value.dataType.range? = some (low, high) →
    ((∃ data, value.encode bitOffset = .ok data) ↔
      ∃ number, value.payload = .int number ∧ low ≤ number ∧ number ≤ high)
  width : ∀ low high, value.dataType.range? = some (low, high) → ∀ data,
    value.encode bitOffset = .ok data → value.dataType.width? = some data.length
  raw : value.dataType = .octetString ∨ value.dataType = .domain →
    ((∃ data, value.encode bitOffset = .ok data) ↔
      ∃ content, value.payload = .bytes content ∨ value.payload = .buffer content)
  text : value.dataType = .string → ((∃ data, value.encode bitOffset = .ok data) ↔
    ∃ text, value.payload = .text text ∧ ∀ code, TextUnit.surrogate code ∉ text)

/-- Encoding returns bytes or refuses the value, for every value but a text with an unpaired
surrogate and one that outgrows the limits, which meet an accident. -/
theorem encode_settles_iff (limits : WritingLimits) (value : Value) (bitOffset : Int) :
    (value.Settles limits bitOffset ↔ ¬ value.IsUnencodable ∧ ¬ value.Outgrows limits bitOffset) ∧
      value.Weighed bitOffset := by
  refine ⟨?_, ?_⟩
  · rw [Settles, encodeWithin]
    cases outcome : value.encode bitOffset with
    | ok data =>
        refine iff_of_true (Or.inl ⟨data, rfl⟩) ⟨?_, ?_⟩
        · intro unencodable
          cases outcome.symm.trans (unencodable.encode_eq bitOffset)
        · intro outgrows
          exact outgrows.1 ⟨data, outcome⟩
    | error fault =>
        rcases encode_error_cases outcome with ⟨objection, rfl⟩ | ⟨rfl, unencodable⟩
        · have encodable : ¬ value.IsUnencodable := by
            intro unencodable
            cases outcome.symm.trans (unencodable.encode_eq bitOffset)
          rw [and_iff_right encodable, outgrows_iff_of_refused outcome, not_not]
          constructor
          · rintro (⟨data, encoded⟩ | ⟨other, refused⟩)
            · cases encoded
            · by_contra hindered
              obtain ⟨accident, hinders⟩ := Option.ne_none_iff_exists'.mp hindered
              simp [Except.mapError, Fault.raised_of_some hinders] at refused
          · intro free
            refine Or.inr ⟨objection, ?_⟩
            simp [Except.mapError, Fault.raised_of_none free]
        · refine iff_of_false ?_ (fun settled => settled.1 unencodable)
          rintro (⟨data, encoded⟩ | ⟨other, refused⟩)
          · cases encoded
          · simp [Except.mapError, Fault.raised, Fault.obstacle?, Fault.numbers,
              Fault.payload?] at refused
  · exact {
      truth := exists_encode_truth_iff
      integer := fun _ _ ranged => (exists_encode_integer_iff ranged).1
      width := fun _ _ ranged => (exists_encode_integer_iff ranged).2
      raw := exists_encode_raw_iff
      text := exists_encode_text_iff }

/-- A lone surrogate is neither encoded nor refused, with or without limits. -/
theorem encode_settles_iff_surrogate :
    (∀ limits, ¬ Settles limits ⟨.string, .text [.surrogate 0]⟩ 0) ∧
      encode ⟨.string, .text [.surrogate 0]⟩ 0 = .error (.accident .encoding) := by
  have unencodable : IsUnencodable ⟨.string, .text [.surrogate 0]⟩ := ⟨rfl, _, rfl, rfl⟩
  refine ⟨?_, unencodable.encode_eq 0⟩
  intro limits
  rw [(encode_settles_iff limits _ _).1]
  exact fun settled => settled.1 unencodable

end Value

end Fieldbus
