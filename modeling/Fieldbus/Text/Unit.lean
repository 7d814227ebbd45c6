import Fieldbus.Bytes

/-!
# Text

A text is a list of units.  A unit is a character or a surrogate that has no
partner: such a unit can be read from an escape, but it has no encoding.
-/

namespace Fieldbus

/-- A character, or the unpaired surrogate `0xd800 + code`. -/
inductive TextUnit where
  | scalar (c : Char)
  | surrogate (code : Fin 2048)
  deriving DecidableEq, Repr

abbrev Text := List TextUnit

namespace TextUnit

def code : TextUnit → Nat
  | scalar c => c.toNat
  | surrogate code => 0xd800 + code

/-- The unit with a given number below `0x110000`. -/
def ofCode (code : Nat) : TextUnit :=
  if 0xd800 ≤ code ∧ code < 0xe000 then surrogate (Fin.ofNat 2048 (code - 0xd800))
  else scalar (Char.ofNat code)

/-- The character, with the replacement character for an unpaired surrogate. -/
def toChar : TextUnit → Char
  | scalar c => c
  | surrogate _ => Char.ofNat 0xfffd

end TextUnit

namespace Text

def ofChars (chars : List Char) : Text :=
  chars.map .scalar

def ofString (text : String) : Text :=
  ofChars text.toList

instance : Coe String Text := ⟨ofString⟩

/-- The characters, with the replacement character for each unpaired surrogate. -/
def toChars (text : Text) : List Char :=
  text.map TextUnit.toChar

/-- The text as a string, with the replacement character for each unpaired
surrogate. -/
def toString (text : Text) : String :=
  String.ofList text.toChars

/-- The texts with a separator between them. -/
def joinWith (separator : Text) (texts : List Text) : Text :=
  separator.intercalate texts

/-- The characters of a text without unpaired surrogates. -/
def chars? : Text → Option (List Char)
  | [] => some []
  | .scalar c :: rest => (chars? rest).map (c :: ·)
  | .surrogate _ :: _ => none

@[simp] theorem chars?_ofChars (chars : List Char) : chars? (ofChars chars) = some chars := by
  induction chars with
  | nil => rfl
  | cons c rest ih =>
    show (chars? (ofChars rest)).map (c :: ·) = _
    rw [ih]
    rfl

@[simp] theorem toChars_ofChars (chars : List Char) : (ofChars chars).toChars = chars := by
  rw [ofChars, toChars, List.map_map]
  exact List.map_id chars

end Text

end Fieldbus
