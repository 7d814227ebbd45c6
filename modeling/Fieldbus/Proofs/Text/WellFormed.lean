import Fieldbus.Proofs.Text.Utf8

/-!
# Well-formed UTF-8

The byte strings that encode characters, told by the ranges of their bytes alone: no sequence
is cut short, none is longer than its character needs, none stands for a surrogate, and none
goes beyond the last character.  They are what encoding writes and what the strict reader
takes, and of nothing else does the lossy reader keep all bytes.
-/

namespace Fieldbus

namespace Utf8

def IsTail (byte : UInt8) : Prop :=
  0x80 ≤ byte.toNat ∧ byte.toNat ≤ 0xbf

/-- The sequences of bytes that stand for one character. -/
inductive IsSequence : Bytes → Prop
  | one {a : UInt8} : a.toNat ≤ 0x7f → IsSequence [a]
  | two {a b : UInt8} : 0xc2 ≤ a.toNat → a.toNat ≤ 0xdf → IsTail b → IsSequence [a, b]
  /-- After `0xe0` a smaller byte would make the sequence too long for its character, after
  `0xed` a greater one would make it stand for a surrogate. -/
  | three {a b c : UInt8} : 0xe0 ≤ a.toNat → a.toNat ≤ 0xef → IsTail b → IsTail c →
      (a.toNat = 0xe0 → 0xa0 ≤ b.toNat) → (a.toNat = 0xed → b.toNat ≤ 0x9f) →
      IsSequence [a, b, c]
  /-- After `0xf0` a smaller byte would make the sequence too long for its character, after
  `0xf4` a greater one would go beyond the last character. -/
  | four {a b c d : UInt8} : 0xf0 ≤ a.toNat → a.toNat ≤ 0xf4 → IsTail b → IsTail c → IsTail d →
      (a.toNat = 0xf0 → 0x90 ≤ b.toNat) → (a.toNat = 0xf4 → b.toNat ≤ 0x8f) →
      IsSequence [a, b, c, d]

/-- Byte strings that are made of sequences for characters. -/
inductive WellFormed : Bytes → Prop
  | nil : WellFormed []
  | append {sequence rest : Bytes} : IsSequence sequence → WellFormed rest →
      WellFormed (sequence ++ rest)

theorem IsSequence.length_pos {sequence : Bytes} (isSequence : IsSequence sequence) :
    0 < sequence.length := by
  cases isSequence <;> exact Nat.succ_pos _

section Encoding

theorem isSequence_encodeChar (c : Char) : IsSequence (encodeChar c) := by
  have valid := toNat_valid c
  rw [encodeChar]
  generalize c.toNat = code at valid ⊢
  have tail (value : Nat) : IsTail (UInt8.ofNat (0x80 + value % 0x40)) := by
    rw [IsTail, toNat_ofNat_of_lt (by omega)]
    omega
  by_cases one : code < 0x80
  · rw [if_pos one]
    have first : (UInt8.ofNat code).toNat = code := toNat_ofNat_of_lt (by omega)
    exact .one (by omega)
  by_cases two : code < 0x800
  · rw [if_neg one, if_pos two]
    have first : (UInt8.ofNat (0xc0 + code / 0x40)).toNat = 0xc0 + code / 0x40 :=
      toNat_ofNat_of_lt (by omega)
    exact .two (by omega) (by omega) (tail _)
  by_cases three : code < 0x10000
  · rw [if_neg one, if_neg two, if_pos three]
    have first : (UInt8.ofNat (0xe0 + code / 0x1000)).toNat = 0xe0 + code / 0x1000 :=
      toNat_ofNat_of_lt (by omega)
    have second : (UInt8.ofNat (0x80 + code / 0x40 % 0x40)).toNat = 0x80 + code / 0x40 % 0x40 :=
      toNat_ofNat_of_lt (by omega)
    exact .three (by omega) (by omega) (tail _) (tail _) (by omega) (by omega)
  · rw [if_neg one, if_neg two, if_neg three]
    have first : (UInt8.ofNat (0xf0 + code / 0x40000)).toNat = 0xf0 + code / 0x40000 :=
      toNat_ofNat_of_lt (by omega)
    have second : (UInt8.ofNat (0x80 + code / 0x1000 % 0x40)).toNat =
        0x80 + code / 0x1000 % 0x40 := toNat_ofNat_of_lt (by omega)
    exact .four (by omega) (by omega) (tail _) (tail _) (tail _) (by omega) (by omega)

theorem exists_char (code : Nat) (valid : code.isValidChar) : ∃ c : Char, c.toNat = code := by
  refine ⟨Char.ofNat code, ?_⟩
  rw [Char.ofNat, dif_pos valid]
  rfl

theorem ofNat_eq (byte : UInt8) {value : Nat} (same : value = byte.toNat) :
    UInt8.ofNat value = byte := by
  rw [same, UInt8.ofNat_toNat]

/-- Every sequence is the encoding of a character. -/
theorem IsSequence.exists_char {sequence : Bytes} (isSequence : IsSequence sequence) :
    ∃ c, encodeChar c = sequence := by
  cases isSequence with
  | @one a below =>
      obtain ⟨c, code⟩ := Utf8.exists_char a.toNat (by
        rw [Nat.isValidChar]
        omega)
      refine ⟨c, ?_⟩
      rw [encodeChar, code, if_pos (by omega), ofNat_eq a rfl]
  | @two a b above below second =>
      obtain ⟨code, number⟩ : ∃ code, code = (a.toNat - 0xc0) * 0x40 + (b.toNat - 0x80) :=
        ⟨_, rfl⟩
      obtain ⟨low, high⟩ := second
      obtain ⟨c, codeEq⟩ := Utf8.exists_char code (by
        rw [Nat.isValidChar]
        omega)
      refine ⟨c, ?_⟩
      rw [encodeChar, codeEq, if_neg (by omega), if_pos (by omega),
        ofNat_eq a (by omega), ofNat_eq b (by omega)]
  | @three a b c above below second third long proper =>
      obtain ⟨code, number⟩ : ∃ code, code =
          (a.toNat - 0xe0) * 0x1000 + (b.toNat - 0x80) * 0x40 + (c.toNat - 0x80) := ⟨_, rfl⟩
      obtain ⟨low, high⟩ := second
      obtain ⟨thirdLow, thirdHigh⟩ := third
      obtain ⟨char, codeEq⟩ := Utf8.exists_char code (by
        rw [Nat.isValidChar]
        omega)
      refine ⟨char, ?_⟩
      rw [encodeChar, codeEq, if_neg (by omega), if_neg (by omega), if_pos (by omega),
        ofNat_eq a (by omega), ofNat_eq b (by omega),
        ofNat_eq c (by omega)]
  | @four a b c d above below second third fourth long proper =>
      obtain ⟨code, number⟩ : ∃ code, code = (a.toNat - 0xf0) * 0x40000 +
          (b.toNat - 0x80) * 0x1000 + (c.toNat - 0x80) * 0x40 + (d.toNat - 0x80) := ⟨_, rfl⟩
      obtain ⟨low, high⟩ := second
      obtain ⟨thirdLow, thirdHigh⟩ := third
      obtain ⟨fourthLow, fourthHigh⟩ := fourth
      obtain ⟨char, codeEq⟩ := Utf8.exists_char code (by
        rw [Nat.isValidChar]
        omega)
      refine ⟨char, ?_⟩
      rw [encodeChar, codeEq, if_neg (by omega), if_neg (by omega), if_neg (by omega),
        ofNat_eq a (by omega), ofNat_eq b (by omega),
        ofNat_eq c (by omega), ofNat_eq d (by omega)]

theorem wellFormed_iff {bytes : Bytes} :
    WellFormed bytes ↔ ∃ chars, encodeChars chars = bytes := by
  constructor
  · intro wellFormed
    induction wellFormed with
    | nil => exact ⟨[], rfl⟩
    | append isSequence _ ih =>
        obtain ⟨c, rfl⟩ := isSequence.exists_char
        obtain ⟨chars, rfl⟩ := ih
        exact ⟨c :: chars, rfl⟩
  · rintro ⟨chars, rfl⟩
    induction chars with
    | nil => exact .nil
    | cons c rest ih => exact .append (isSequence_encodeChar c) ih

/-- Encoding what the lossy reader found gives the bytes back exactly if they are
well-formed. -/
theorem encodeChars_decodeLossy_iff {bytes : Bytes} :
    encodeChars (decodeLossy bytes) = bytes ↔ WellFormed bytes := by
  rw [wellFormed_iff]
  constructor
  · intro same
    exact ⟨_, same⟩
  · rintro ⟨chars, rfl⟩
    rw [decodeLossy_encodeChars]

end Encoding

section Strict

/-- The bytes that follow a first byte are read one by one. -/
theorem follow_succ_eq_some {following low high bits code : Nat} {rest left : Bytes}
    (read : follow (following + 1) low high bits rest = (some code, left)) :
    ∃ byte more bits, rest = byte :: more ∧ low ≤ byte.toNat ∧ byte.toNat ≤ high ∧
      follow following 0x80 0xbf bits more = (some code, left) := by
  cases rest with
  | nil => cases read
  | cons byte more =>
      rw [follow] at read
      split at read
      · rename_i inside
        exact ⟨byte, more, _, rfl, inside.1, inside.2, read⟩
      · cases read

theorem follow_zero_eq_some {low high bits code : Nat} {rest left : Bytes}
    (read : follow 0 low high bits rest = (some code, left)) : rest = left :=
  congrArg Prod.snd read

/-- A piece that is a character is a sequence, by one line of the table of first bytes each. -/
theorem isSequence_of_piece {byte : UInt8} {rest left : Bytes} {c : Char}
    (read : piece byte rest = (some c, left)) :
    ∃ sequence, IsSequence sequence ∧ byte :: rest = sequence ++ left := by
  rw [piece] at read
  split at read
  · cases read
  rename_i lead leads
  obtain ⟨codeEq, leftEq⟩ := Prod.mk.inj read
  obtain ⟨code, found, _⟩ := Option.map_eq_some_iff.mp codeEq
  have followed : follow lead.following lead.low lead.high lead.bits rest = (some code, left) :=
    Prod.ext found leftEq
  rw [lead?] at leads
  split at leads
  · rename_i one
    cases leads
    rw [follow_zero_eq_some followed]
    exact ⟨[byte], .one (by omega), rfl⟩
  split at leads
  · cases leads
  split at leads
  · cases leads
    obtain ⟨b, more, _, rfl, low, high, followed⟩ := follow_succ_eq_some followed
    rw [follow_zero_eq_some followed]
    exact ⟨[byte, b], .two (by omega) (by omega) ⟨low, high⟩, rfl⟩
  split at leads
  · cases leads
    obtain ⟨b, more, _, rfl, low, high, followed⟩ := follow_succ_eq_some followed
    obtain ⟨c, more, _, rfl, cLow, cHigh, followed⟩ := follow_succ_eq_some followed
    rw [follow_zero_eq_some followed]
    dsimp only at low high
    refine ⟨[byte, b, c], .three (by omega) (by omega) ⟨?_, ?_⟩ ⟨cLow, cHigh⟩ ?_ ?_, rfl⟩ <;>
      split at low <;> split at high <;> omega
  split at leads
  · cases leads
    obtain ⟨b, more, _, rfl, low, high, followed⟩ := follow_succ_eq_some followed
    obtain ⟨c, more, _, rfl, cLow, cHigh, followed⟩ := follow_succ_eq_some followed
    obtain ⟨d, more, _, rfl, dLow, dHigh, followed⟩ := follow_succ_eq_some followed
    rw [follow_zero_eq_some followed]
    dsimp only at low high
    refine ⟨[byte, b, c, d], .four (by omega) (by omega) ⟨?_, ?_⟩ ⟨cLow, cHigh⟩ ⟨dLow, dHigh⟩
      ?_ ?_, rfl⟩ <;>
      split at low <;> split at high <;> omega
  · cases leads

theorem wellFormed_of_piecesWithin {fuel : Nat} {bytes : Bytes} (enough : bytes.length ≤ fuel)
    (whole : none ∉ piecesWithin fuel bytes) : WellFormed bytes := by
  induction fuel generalizing bytes with
  | zero =>
      have empty : bytes = [] := List.eq_nil_of_length_eq_zero (Nat.le_zero.mp enough)
      rw [empty]
      exact .nil
  | succ fuel ih =>
      cases bytes with
      | nil => exact .nil
      | cons byte rest =>
          rw [piecesWithin] at whole
          cases first : piece byte rest with
          | mk found left =>
              rw [first] at whole
              cases found with
              | none => exact absurd List.mem_cons_self whole
              | some c =>
                  obtain ⟨sequence, isSequence, split⟩ := isSequence_of_piece first
                  have shorter := congrArg List.length split
                  have positive := isSequence.length_pos
                  simp only [List.length_cons, List.length_append] at shorter enough
                  rw [split]
                  exact .append isSequence
                    (ih (by omega) fun member => whole (List.mem_cons_of_mem _ member))

theorem isSome_decode?_iff {bytes : Bytes} : (decode? bytes).isSome ↔ WellFormed bytes := by
  have taken (pieces : List (Option Char)) : (pieces.mapM id).isSome ↔ none ∉ pieces := by
    induction pieces with
    | nil => simp
    | cons first rest ih =>
        cases first with
        | none => simp
        | some c => cases more : rest.mapM id <;> simp_all
  rw [decode?, taken]
  constructor
  · exact wellFormed_of_piecesWithin (Nat.le_refl _)
  · intro wellFormed
    obtain ⟨chars, rfl⟩ := wellFormed_iff.mp wellFormed
    simp [pieces_encodeChars]

instance : DecidablePred WellFormed := fun _ => decidable_of_iff _ isSome_decode?_iff

/-- A sequence that is cut short, one that is too long, a surrogate, and a number beyond the
last character. -/
example : ¬ WellFormed [0xe2, 0x82] ∧ ¬ WellFormed [0xc0, 0xaf] ∧
    ¬ WellFormed [0xed, 0xa0, 0x80] ∧ ¬ WellFormed [0xf4, 0x90, 0x80, 0x80] := by decide

end Strict

end Utf8

end Fieldbus
