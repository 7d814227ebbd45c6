import Fieldbus.Text.Utf8

/-!
# Reading what was encoded

The encoding of a character is one piece, so that reading the encoding of a text finds its
characters and no malformed stretch.
-/

namespace Fieldbus

namespace Utf8

theorem toNat_ofNat_of_lt {value : Nat} (small : value < 256) :
    (UInt8.ofNat value).toNat = value := by
  rw [UInt8.toNat_ofNat']
  omega

/-- A byte of the encoding that continues a character. -/
theorem follow_cons {following low high bits next : Nat} (small : next < 0x40)
    (above : low ≤ 0x80 + next) (below : 0x80 + next ≤ high) (rest : Bytes) :
    follow (following + 1) low high bits (UInt8.ofNat (0x80 + next) :: rest) =
      follow following 0x80 0xbf (bits * 0x40 + next) rest := by
  rw [follow, toNat_ofNat_of_lt (by omega), if_pos ⟨above, below⟩, Nat.add_sub_cancel_left]

theorem toNat_valid (c : Char) : c.toNat < 0xd800 ∨ 0xdfff < c.toNat ∧ c.toNat < 0x110000 := by
  have valid := c.valid
  simpa [UInt32.isValidChar, Nat.isValidChar] using valid

/-- The first byte of an encoding, with what follows read so far. -/
theorem piece_of_lead {byte following low high bits code : Nat} {more rest : Bytes}
    (small : byte < 256) (leads : lead? byte = some ⟨following, low, high, bits⟩)
    (follows : follow following low high bits more = (some code, rest)) :
    piece (UInt8.ofNat byte) more = (some (Char.ofNat code), rest) := by
  rw [piece, toNat_ofNat_of_lt small, leads]
  simp only [follows, Option.map_some]

/-- The encoding of a character is read as one piece.  There is a case for each length of an
encoding: smaller numbers have shorter encodings. -/
theorem piece_encodeChar (c : Char) (rest : Bytes) :
    ∃ byte more, encodeChar c ++ rest = byte :: more ∧ piece byte more = (some c, rest) := by
  have valid := toNat_valid c
  have same : Char.ofNat c.toNat = c := Char.ofNat_toNat c
  rw [encodeChar]
  generalize c.toNat = code at valid same ⊢
  by_cases one : code < 0x80
  · refine ⟨_, _, by
      simp only [if_pos one, List.cons_append, List.nil_append]
      rfl, ?_⟩
    rw [← same]
    apply piece_of_lead (by omega) (by rw [lead?, if_pos one])
    rw [follow]
  by_cases two : code < 0x800
  · refine ⟨_, _, by
      simp only [if_neg one, if_pos two, List.cons_append, List.nil_append]
      rfl, ?_⟩
    have whole : (0xc0 + code / 0x40 - 0xc0) * 0x40 + code % 0x40 = code := by omega
    rw [← same]
    apply piece_of_lead (by omega)
    · rw [lead?, if_neg (by omega), if_neg (by omega), if_pos (by omega)]
    · rw [follow_cons (by omega) (by omega) (by omega), follow, whole]
  by_cases three : code < 0x10000
  · refine ⟨_, _, by
      simp only [if_neg one, if_neg two, if_pos three, List.cons_append, List.nil_append]
      rfl, ?_⟩
    have whole : ((0xe0 + code / 0x1000 - 0xe0) * 0x40 + code / 0x40 % 0x40) * 0x40 +
        code % 0x40 = code := by omega
    rw [← same]
    apply piece_of_lead (by omega)
    · rw [lead?, if_neg (by omega), if_neg (by omega), if_neg (by omega), if_pos (by omega)]
    · rw [follow_cons (by omega), follow_cons (by omega) (by omega) (by omega), follow, whole]
      · split <;> omega
      · split <;> omega
  · refine ⟨_, _, by
      simp only [if_neg one, if_neg two, if_neg three, List.cons_append, List.nil_append]
      rfl, ?_⟩
    have whole : (((0xf0 + code / 0x40000 - 0xf0) * 0x40 + code / 0x1000 % 0x40) * 0x40 +
        code / 0x40 % 0x40) * 0x40 + code % 0x40 = code := by omega
    rw [← same]
    apply piece_of_lead (by omega)
    · rw [lead?, if_neg (by omega), if_neg (by omega), if_neg (by omega), if_neg (by omega),
        if_pos (by omega)]
    · rw [follow_cons (by omega), follow_cons (by omega) (by omega) (by omega),
        follow_cons (by omega) (by omega) (by omega), follow, whole]
      · split <;> omega
      · split <;> omega

theorem length_encodeChar_pos (c : Char) : 0 < (encodeChar c).length := by
  obtain ⟨byte, more, split, _⟩ := piece_encodeChar c []
  rw [← List.append_nil (encodeChar c), split]
  exact Nat.succ_pos _

theorem piecesWithin_encodeChars {fuel : Nat} (chars : List Char)
    (enough : (encodeChars chars).length ≤ fuel) :
    piecesWithin fuel (encodeChars chars) = chars.map some := by
  induction chars generalizing fuel with
  | nil => cases fuel <;> rfl
  | cons c chars ih =>
      obtain ⟨byte, more, split, reads⟩ := piece_encodeChar c (encodeChars chars)
      have whole : encodeChars (c :: chars) = byte :: more := split
      rw [whole, List.length_cons] at enough
      have shorter : (encodeChars chars).length ≤ more.length := by
        have lengths := congrArg List.length split
        have inhabited := length_encodeChar_pos c
        simp only [List.length_append, List.length_cons] at lengths
        omega
      cases fuel with
      | zero => omega
      | succ fuel =>
          rw [whole, piecesWithin, reads]
          simp only [ih (Nat.le_trans shorter (Nat.le_of_succ_le_succ enough)), List.map_cons]

/-- Reading the encoding of some characters finds these characters. -/
theorem pieces_encodeChars (chars : List Char) : pieces (encodeChars chars) = chars.map some :=
  piecesWithin_encodeChars chars (Nat.le_refl _)

theorem decodeLossy_encodeChars (chars : List Char) : decodeLossy (encodeChars chars) = chars := by
  rw [decodeLossy, pieces_encodeChars, List.map_map]
  exact List.map_id chars

theorem encode?_ofChars (chars : List Char) :
    encode? (Text.ofChars chars) = some (encodeChars chars) := by
  rw [encode?, Text.chars?_ofChars, Option.map_some]

end Utf8

namespace Text

theorem ofChars_of_chars? {text : Text} {chars : List Char} (whole : text.chars? = some chars) :
    ofChars chars = text := by
  induction text generalizing chars with
  | nil =>
      cases whole
      rfl
  | cons unit rest ih =>
      cases unit with
      | surrogate code => cases whole
      | scalar c =>
          obtain ⟨more, found, rfl⟩ := Option.map_eq_some_iff.mp whole
          rw [ofChars, List.map_cons, ← ofChars, ih found]

theorem decode_encode {text : Text} {bytes : Bytes} (encoded : Utf8.encode? text = some bytes) :
    ofChars (Utf8.decodeLossy bytes) = text := by
  obtain ⟨chars, whole, rfl⟩ := Option.map_eq_some_iff.mp encoded
  rw [Utf8.decodeLossy_encodeChars, ofChars_of_chars? whole]

end Text

end Fieldbus
