import Fieldbus.Proofs.Text.Utf8
import Fieldbus.Proofs.Value.Decoding

/-!
# Reading back what was written

Truth values, integers, binary64 numbers, texts and raw bytes are decoded from their encodings as
they were.  A buffer comes back as its bytes.
-/

namespace Fieldbus

namespace Bytes

theorem toNat_ofNat (width value : Nat) : toNat (ofNat width value) = value % 256 ^ width := by
  induction width generalizing value with
  | zero => rw [ofNat, toNat, Nat.pow_zero, Nat.mod_one]
  | succ width ih =>
      have low : (UInt8.ofNat value).toNat = value % 256 := UInt8.toNat_ofNat'
      rw [ofNat, toNat, ih, low, Nat.pow_succ, Nat.mul_comm (256 ^ width), Nat.mod_mul]

theorem toInt_ofInt {width : Nat} {value : Int} (above : -((256 ^ width / 2 : Nat) : Int) ≤ value)
    (below : value < ((256 ^ width / 2 : Nat) : Int)) : toInt (ofInt width value) = value := by
  obtain ⟨half, modulus⟩ : ∃ half, 256 ^ width = 2 * half := by
    cases width with
    | zero => simp at above below; omega
    | succ width => exact ⟨256 ^ width * 128, by omega⟩
  have positive : 0 < 256 ^ width := Nat.pow_pos (by decide)
  rw [toInt, length_ofInt, ofInt, toNat_ofNat]
  simp only [Nat.pow_eq, modulus] at above below positive ⊢
  rw [Nat.mul_div_cancel_left _ (by decide)] at above below
  rcases Int.lt_or_le value 0 with negative | positive
  · have wrapped : value % (2 * half : Nat) = value + (2 * half : Nat) := by
      rw [← Int.add_emod_right, Int.emod_eq_of_lt (by omega) (by omega)]
    rw [wrapped, Nat.mod_eq_of_lt (by omega), if_neg (by omega)]
    omega
  · have kept : value % (2 * half : Nat) = value := Int.emod_eq_of_lt positive (by omega)
    rw [kept, Nat.mod_eq_of_lt (by omega), if_pos (by omega)]
    omega

end Bytes

/-- A buffer counts as its bytes. -/
def Payload.settled : Payload → Payload
  | .buffer content => .bytes content
  | payload => payload

namespace Scalar

def IsInteger : Scalar → Prop
  | unsigned _ | signed _ => True
  | float32 | float64 => False

theorem encode_unsigned (width : Nat) (value : Int) :
    (unsigned width).encode (.int value) =
      if 0 ≤ value ∧ value < (Nat.pow 256 width : Nat) then .ok (Bytes.ofNat width value.toNat)
      else .error .outOfRange := by
  unfold encode
  rfl

theorem encode_signed (width : Nat) (value : Int) :
    (signed width).encode (.int value) =
      if -((Nat.pow 256 width / 2 : Nat) : Int) ≤ value ∧
          value < ((Nat.pow 256 width / 2 : Nat) : Int) then .ok (Bytes.ofInt width value)
      else .error .outOfRange := by
  unfold encode
  rfl

theorem decode_encode {scalar : Scalar} {payload : Payload} {data : Bytes}
    (integer : scalar.IsInteger) (encoded : scalar.encode payload = .ok data) :
    data.length = scalar.width ∧ scalar.decode data = payload.settled := by
  cases scalar with
  | unsigned width =>
      cases payload with
      | int value =>
          rw [encode_unsigned] at encoded
          split at encoded
          · rename_i inside
            have small : value.toNat < 256 ^ width := (Int.toNat_lt inside.1).mpr inside.2
            rw [← Except.ok.inj encoded, decode, Bytes.toNat_ofNat, Nat.mod_eq_of_lt small,
              Int.toNat_of_nonneg inside.1]
            exact ⟨Bytes.length_ofNat _ _, rfl⟩
          · cases encoded
      | _ => cases encoded
  | signed width =>
      cases payload with
      | int value =>
          rw [encode_signed] at encoded
          split at encoded
          · rename_i inside
            rw [← Except.ok.inj encoded, decode, Bytes.toInt_ofInt inside.1 inside.2]
            exact ⟨Bytes.length_ofInt _ _, rfl⟩
          · cases encoded
      | _ => cases encoded
  | float32 => cases integer
  | float64 => cases integer

theorem encode_float64 (number : Binary64) :
    float64.encode (.real number) = .ok (Bytes.ofNat 8 number.bits.toNat) := rfl

theorem decode_float64_ofNat (number : Binary64) :
    float64.decode (Bytes.ofNat 8 number.bits.toNat) = .real number := by
  have small : number.bits.toNat < 256 ^ 8 := number.bits.toNat_lt
  rw [decode, Bytes.toNat_ofNat, Nat.mod_eq_of_lt small, UInt64.ofNat_toNat]

end Scalar

/-- The bytes that stand for a payload in a storage.  A truth value is the bit at an offset. -/
inductive Storage.Holds (offset : Int) : Storage → Payload → Bytes → Prop
  | truth {truth : Bool} : 0 ≤ offset → offset ≤ 7 →
      Holds offset .truth (.bool truth) [UInt8.ofNat (if truth then 2 ^ offset.toNat else 0)]
  | text {chars : List Char} :
      Holds offset .text (.text (Text.ofChars chars)) (Utf8.encodeChars chars)
  | bytes {content : Bytes} : Holds offset .raw (.bytes content) content
  | buffer {content : Bytes} : Holds offset .raw (.buffer content) content
  | scalar {scalar : Scalar} {payload : Payload} {data : Bytes} :
      scalar.encode payload = .ok data → Holds offset (.scalar scalar) payload data

namespace Storage

variable {storage : Storage} {payload : Payload} {data : Bytes} {offset : Int}

/-- Payloads that come back as they were encoded: all but those that are rounded to a format. -/
def Keeps (storage : Storage) (payload : Payload) : Prop :=
  ∀ scalar, storage = .scalar scalar →
    scalar.IsInteger ∨ scalar = .float64 ∧ ∃ number, payload = .real number

theorem truth_of_bit (truth : Bool) {position : Nat} (small : position < 8) :
    decide (Bytes.toNat [UInt8.ofNat (if truth then 2 ^ position else 0)] / 2 ^ position % 2 = 1) =
      truth := by
  have bounded : 2 ^ position < 256 := Nat.pow_lt_pow_right (by decide) small
  rw [Bytes.toNat, Bytes.toNat, Nat.mul_zero, Nat.add_zero]
  cases truth with
  | true =>
      rw [if_pos rfl, Utf8.toNat_ofNat_of_lt bounded, Nat.div_self (Nat.two_pow_pos _)]
      rfl
  | false => simp

/-- Reading finds the payload in the bytes that stand for it. -/
theorem Holds.payload_eq (holds : storage.Holds offset payload data)
    (keeps : storage.Keeps payload) :
    (∀ scalar, storage = .scalar scalar → data.length = scalar.width) ∧
      storage.payload data offset = payload.settled := by
  cases holds with
  | truth above below =>
      refine ⟨by rintro _ ⟨⟩, ?_⟩
      rw [Storage.payload, truth_of_bit _ (by omega)]
      rfl
  | text =>
      refine ⟨by rintro _ ⟨⟩, ?_⟩
      rw [Storage.payload, Utf8.decodeLossy_encodeChars]
      rfl
  | bytes => exact ⟨by rintro _ ⟨⟩, rfl⟩
  | buffer => exact ⟨by rintro _ ⟨⟩, rfl⟩
  | @scalar scalar _ _ written =>
      obtain ⟨lengthEq, decoded⟩ : data.length = scalar.width ∧
          scalar.decode data = payload.settled := by
        rcases keeps scalar rfl with integer | ⟨rfl, number, rfl⟩
        · exact scalar.decode_encode integer written
        · cases written
          exact ⟨Bytes.length_ofNat _ _, Scalar.decode_float64_ofNat number⟩
      refine ⟨?_, decoded⟩
      rintro _ ⟨⟩
      exact lengthEq

theorem payload_congr (whole : storage ≠ .truth) (data : Bytes) (offset other : Int) :
    storage.payload data other = storage.payload data offset := by
  cases storage with
  | truth => exact absurd rfl whole
  | text => rfl
  | raw => rfl
  | scalar scalar => rfl

end Storage

/-- The types whose values come back as they were encoded. -/
def DataType.exact : List DataType :=
  [.bool, .byte, .u8, .u16, .u32, .u64, .i8, .i16, .i32, .i64, .string, .octetString, .domain]

theorem DataType.exists_storage_of_exact {type : DataType} (exact : type ∈ DataType.exact) :
    ∃ storage, type.storage? = some storage ∧
      ∀ scalar, storage = .scalar scalar → scalar.IsInteger := by
  simp only [DataType.exact, List.mem_cons, List.not_mem_nil, or_false] at exact
  rcases exact with rfl | rfl | rfl | rfl | rfl | rfl | rfl | rfl | rfl | rfl | rfl | rfl | rfl <;>
    refine ⟨_, rfl, ?_⟩ <;> rintro scalar same <;> cases same <;> trivial

namespace Value

variable {value : Value} {storage : Storage} {data : Bytes} {offset : Int}

theorem encode_eq_ok_iff (stored : value.dataType.storage? = some storage) :
    value.encode offset = .ok data ↔ storage.Holds offset value.payload data := by
  rw [encode, stored]
  constructor
  · intro encoded
    cases storage with
    | truth =>
        cases payload : value.payload with
        | bool truth =>
            simp only [payload] at encoded
            split at encoded
            · rename_i inside
              cases encoded
              exact .truth inside.1 inside.2
            · cases encoded
        | _ =>
            simp only [payload] at encoded
            cases encoded
    | text =>
        cases payload : value.payload with
        | text text =>
            simp only [payload] at encoded
            cases written : Utf8.encode? text with
            | none =>
                simp only [written] at encoded
                cases encoded
            | some bytes =>
                simp only [written] at encoded
                cases encoded
                obtain ⟨chars, whole, rfl⟩ := Option.map_eq_some_iff.mp written
                rw [← Text.ofChars_of_chars? whole]
                exact .text
        | _ =>
            simp only [payload] at encoded
            cases encoded
    | raw =>
        cases payload : value.payload with
        | bytes content =>
            simp only [payload] at encoded
            cases encoded
            exact .bytes
        | buffer content =>
            simp only [payload] at encoded
            cases encoded
            exact .buffer
        | _ =>
            simp only [payload] at encoded
            cases encoded
    | scalar scalar =>
        cases written : scalar.encode value.payload with
        | ok bytes =>
            simp only [written] at encoded
            cases encoded
            exact .scalar written
        | error objection =>
            simp only [written] at encoded
            cases encoded
  · intro holds
    generalize value.payload = payload at holds
    cases holds with
    | truth above below => simp only [if_pos (And.intro above below), Nat.pow_eq]
    | text => simp only [Utf8.encode?_ofChars]
    | bytes => rfl
    | buffer => rfl
    | scalar written => simp only [written]

/-- The bytes of a value that is no truth value hold its payload, in the width of its type. -/
theorem payload_of_encode (stored : value.dataType.storage? = some storage)
    (whole : storage ≠ .truth) (exact : ∀ scalar, storage = .scalar scalar → scalar.IsInteger)
    (encoded : value.encode offset = .ok data) (other : Int) :
    (∀ scalar, storage = .scalar scalar → data.length = scalar.width) ∧
      storage.payload data other = value.payload.settled := by
  obtain ⟨width, found⟩ := ((encode_eq_ok_iff stored).mp encoded).payload_eq
    fun scalar same => Or.inl (exact scalar same)
  rw [Storage.payload_congr whole data offset]
  exact ⟨width, found⟩

end Value

end Fieldbus
