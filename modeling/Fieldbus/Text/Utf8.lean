import Fieldbus.Text.Unit

/-!
# UTF-8

Reading splits a byte string into pieces: the encodings of characters and the
malformed stretches between them.  A malformed stretch is as long as it is the
beginning of some encoding, and at least one byte.  A strict reader refuses
malformed stretches; a lossy reader puts one replacement character for each.
-/

namespace Fieldbus

namespace Utf8

def encodeChar (c : Char) : Bytes :=
  let code := c.toNat
  if code < 0x80 then [UInt8.ofNat code]
  else if code < 0x800 then
    [UInt8.ofNat (0xc0 + code / 0x40), UInt8.ofNat (0x80 + code % 0x40)]
  else if code < 0x10000 then
    [UInt8.ofNat (0xe0 + code / 0x1000), UInt8.ofNat (0x80 + code / 0x40 % 0x40),
      UInt8.ofNat (0x80 + code % 0x40)]
  else
    [UInt8.ofNat (0xf0 + code / 0x40000), UInt8.ofNat (0x80 + code / 0x1000 % 0x40),
      UInt8.ofNat (0x80 + code / 0x40 % 0x40), UInt8.ofNat (0x80 + code % 0x40)]

def encodeChars (chars : List Char) : Bytes :=
  chars.flatMap encodeChar

/-- The encoding of a text; an unpaired surrogate has none. -/
def encode? (text : Text) : Option Bytes :=
  text.chars?.map encodeChars

/-- What the first byte of an encoding says: how many bytes follow, the range of
the second byte, and the leading bits of the character. -/
structure Lead where
  following : Nat
  low : Nat
  high : Nat
  bits : Nat

def lead? (byte : Nat) : Option Lead :=
  if byte < 0x80 then some ⟨0, 0, 0, byte⟩
  else if byte < 0xc2 then none
  else if byte < 0xe0 then some ⟨1, 0x80, 0xbf, byte - 0xc0⟩
  else if byte < 0xf0 then
    some ⟨2, if byte = 0xe0 then 0xa0 else 0x80, if byte = 0xed then 0x9f else 0xbf, byte - 0xe0⟩
  else if byte < 0xf5 then
    some ⟨3, if byte = 0xf0 then 0x90 else 0x80, if byte = 0xf4 then 0x8f else 0xbf, byte - 0xf0⟩
  else none

/-- Read the bytes that follow a first byte.  The second component is what is
left after the character or the malformed stretch. -/
def follow : (following low high bits : Nat) → Bytes → Option Nat × Bytes
  | 0, _, _, bits, rest => (some bits, rest)
  | _ + 1, _, _, _, [] => (none, [])
  | following + 1, low, high, bits, byte :: rest =>
      if low ≤ byte.toNat ∧ byte.toNat ≤ high then
        follow following 0x80 0xbf (bits * 0x40 + (byte.toNat - 0x80)) rest
      else (none, byte :: rest)

/-- The first piece of a byte string and the rest. -/
def piece (byte : UInt8) (rest : Bytes) : Option Char × Bytes :=
  match lead? byte.toNat with
  | none => (none, rest)
  | some lead =>
      let (code, left) := follow lead.following lead.low lead.high lead.bits rest
      (code.map Char.ofNat, left)

/-- At most `fuel` pieces of a byte string; every piece takes at least a byte. -/
def piecesWithin : (fuel : Nat) → Bytes → List (Option Char)
  | 0, _ => []
  | _, [] => []
  | fuel + 1, byte :: rest =>
      let (first, left) := piece byte rest
      first :: piecesWithin fuel left

/-- The characters and malformed stretches of a byte string. -/
def pieces (bytes : Bytes) : List (Option Char) :=
  piecesWithin bytes.length bytes

def decode? (bytes : Bytes) : Option (List Char) :=
  (pieces bytes).mapM id

def replacement : Char := Char.ofNat 0xfffd

/-- The characters of a byte string, with one replacement character for each
malformed stretch. -/
def decodeLossy (bytes : Bytes) : List Char :=
  (pieces bytes).map (·.getD replacement)

end Utf8

end Fieldbus
