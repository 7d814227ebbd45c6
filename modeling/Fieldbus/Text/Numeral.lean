import Fieldbus.Number.Binary64
import Fieldbus.Text.Character

/-!
# Numerals

Numbers as texts: hexadecimal addresses as they are printed, and the numerals
that users and files may write.  A numeral may be surrounded by blanks, may have
a sign, may have single underscores between digits, and may use the decimal
digits of any script.
-/

namespace Fieldbus

namespace Numeral

def hexDigits (value : Nat) : List Char :=
  (Nat.toDigits 16 value).map Char.toUpper

/-- Upper-case hexadecimal, padded with zeros to `width` characters; a sign
counts among them. -/
def hex (width : Nat) (value : Int) : String :=
  let digits := hexDigits value.natAbs
  if value < 0 then
    String.ofList ('-' :: (List.replicate (width - 1 - digits.length) '0' ++ digits))
  else String.ofList (List.replicate (width - digits.length) '0' ++ digits)

/-- Fill `text` up to `width` characters with spaces on the left. -/
def padLeft (width : Nat) (text : String) : String :=
  String.ofList (List.replicate (width - text.length) ' ') ++ text

/-- Fill `text` up to `width` characters with spaces on the right. -/
def padRight (width : Nat) (text : String) : String :=
  text ++ String.ofList (List.replicate (width - text.length) ' ')

/-- A decimal numeral has at most this many digits. -/
def maxDecimalDigits : Nat := 4300

/-- The value of an ASCII digit or letter as a digit. -/
def digitValue? (c : Char) : Option Nat :=
  if '0' ≤ c ∧ c ≤ '9' then some (c.toNat - '0'.toNat)
  else if 'a' ≤ c ∧ c ≤ 'z' then some (c.toNat - 'a'.toNat + 10)
  else if 'A' ≤ c ∧ c ≤ 'Z' then some (c.toNat - 'A'.toNat + 10)
  else none

/-- Write a wide blank as a space and a wide digit as its ASCII digit; any other
wide character becomes one that no numeral has. -/
def narrow (c : Char) : Char :=
  if c.toNat < 0x7f then c
  else if Character.isWideBlank c then ' '
  else match Character.wideDigit? c with
    | some value => Char.ofNat ('0'.toNat + value)
    | none => '?'

def trim (text : List Char) : List Char :=
  let stripped := text.dropWhile Character.isAsciiBlank
  (stripped.reverse.dropWhile Character.isAsciiBlank).reverse

/-- The digits of a numeral in a base, with single underscores between them.
`value` is that of the digits before, and `afterDigit` says whether one of them
stands directly before. -/
def digitsFrom? (base : Nat) : (value : Nat) → (afterDigit : Bool) → List Char → Option Nat
  | value, afterDigit, [] => if afterDigit then some value else none
  | value, afterDigit, c :: rest =>
      if c = '_' then
        if afterDigit then digitsFrom? base value false rest else none
      else match digitValue? c with
        | some digit => if digit < base then digitsFrom? base (value * base + digit) true rest
            else none
        | none => none

/-- A numeral of digits only.  The length of decimal numerals is limited. -/
def digits? (base : Nat) (text : List Char) : Option Nat :=
  if base = 10 ∧ maxDecimalDigits < text.countP (· ≠ '_') then none
  else digitsFrom? base 0 false text

/-- Digits after a base mark, which one underscore may separate from it. -/
def markedDigits? (base : Nat) : List Char → Option Nat
  | '_' :: rest => digits? base rest
  | text => digits? base text

/-- A natural number in a base; base 16 allows its mark.  Base 0 reads the base
from the mark, and allows leading zeros without one only in zero itself. -/
def natural? (base : Nat) (text : List Char) : Option Nat :=
  match base, text with
  | 16, '0' :: 'x' :: rest => markedDigits? 16 rest
  | 16, '0' :: 'X' :: rest => markedDigits? 16 rest
  | 0, '0' :: 'x' :: rest => markedDigits? 16 rest
  | 0, '0' :: 'X' :: rest => markedDigits? 16 rest
  | 0, '0' :: 'o' :: rest => markedDigits? 8 rest
  | 0, '0' :: 'O' :: rest => markedDigits? 8 rest
  | 0, '0' :: 'b' :: rest => markedDigits? 2 rest
  | 0, '0' :: 'B' :: rest => markedDigits? 2 rest
  | 0, '0' :: rest =>
      match digits? 10 ('0' :: rest) with
      | some 0 => some 0
      | _ => none
  | 0, text => digits? 10 text
  | base, text => digits? base text

/-- An integer in a base (see `natural?`). -/
def integer? (base : Nat) (text : List Char) : Option Int :=
  match trim (text.map narrow) with
  | '-' :: rest => (natural? base rest).map fun value => -(value : Int)
  | '+' :: rest => (natural? base rest).map fun value => (value : Int)
  | rest => (natural? base rest).map fun value => (value : Int)

def isDigit (c : Char) : Bool :=
  '0' ≤ c && c ≤ '9'

/-- Remove the underscores of a numeral, each of which must stand between two
digits.  `afterDigit` says whether a digit stands directly before the text. -/
def joined? : (afterDigit : Bool) → List Char → Option (List Char)
  | _, [] => some []
  | afterDigit, '_' :: c :: rest =>
      if afterDigit && isDigit c then (joined? true rest).map (c :: ·) else none
  | _, c :: rest => if c = '_' then none else (joined? (isDigit c) rest).map (c :: ·)

/-- A decimal with the digits before and after its point and its exponent. -/
def decimal (negative : Bool) (whole places : List Char) (exponent : Int) : Binary64 :=
  let value (text : List Char) : Nat :=
    text.foldl (fun value c => value * 10 + (c.toNat - '0'.toNat)) 0
  Binary64.ofDecimal negative (value (whole ++ places)) (exponent - places.length)

/-- The exponent part of a decimal: nothing, or a mark, a sign and digits. -/
def exponent? : List Char → Option Int
  | [] => some 0
  | mark :: rest =>
      if mark = 'e' ∨ mark = 'E' then
        let (negative, digits) := match rest with
          | '-' :: digits => (true, digits)
          | '+' :: digits => (false, digits)
          | digits => (false, digits)
        if digits ≠ [] ∧ digits.all isDigit then
          let value : Nat := digits.foldl (fun value c => value * 10 + (c.toNat - '0'.toNat)) 0
          some (if negative then -(value : Int) else value)
        else none
      else none

/-- A decimal without a sign: digits with an optional point, of which at least
one is present, and an optional exponent. -/
def unsignedReal? (negative : Bool) (text : List Char) : Option Binary64 :=
  let lower := text.map Char.toLower
  if lower = "inf".toList ∨ lower = "infinity".toList then some (Binary64.infinity negative)
  else if lower = "nan".toList then some Binary64.nan
  else do
    let text ← joined? false text
    let whole := text.takeWhile isDigit
    let rest := text.dropWhile isDigit
    let (places, rest) := match rest with
      | '.' :: rest => (rest.takeWhile isDigit, rest.dropWhile isDigit)
      | rest => ([], rest)
    if whole.isEmpty && places.isEmpty then none
    else
      let exponent ← exponent? rest
      some (decimal negative whole places exponent)

/-- A decimal, an infinity or `nan`, with an optional sign and blanks around. -/
def real? (text : List Char) : Option Binary64 :=
  match trim (text.map narrow) with
  | '-' :: rest => unsignedReal? true rest
  | '+' :: rest => unsignedReal? false rest
  | rest => unsignedReal? false rest

end Numeral

end Fieldbus
