import Fieldbus.Json.Basic
import Fieldbus.Text.Numeral
import Fieldbus.Text.Utf8

/-!
# Reading JSON documents

The reader takes the standard grammar with three more numbers: `NaN`, `Infinity`
and `-Infinity`.  Raw control characters in texts, trailing commas and anything
after the document are refused, and so is a document that nests too deep.
-/

namespace Fieldbus

namespace Json

def skipBlanks (text : List Char) : List Char :=
  text.dropWhile fun c => c = ' ' || c = '\t' || c = '\n' || c = '\r'

def hexFour? (a b c d : Char) : Option Nat := do
  let digit (c : Char) : Option Nat := (Numeral.digitValue? c).filter (· < 16)
  return (((← digit a) * 16 + (← digit b)) * 16 + (← digit c)) * 16 + (← digit d)

/-- Put an escaped unit before a text; a high surrogate joins a low one. -/
def joinUnit (unit : TextUnit) : Text → Text
  | .surrogate low :: rest =>
      match unit with
      | .surrogate high =>
          if high.val < 0x400 ∧ 0x400 ≤ low.val then
            .scalar (Char.ofNat (0x10000 + high * 0x400 + (low - 0x400))) :: rest
          else unit :: .surrogate low :: rest
      | .scalar c => .scalar c :: .surrogate low :: rest
  | rest => unit :: rest

/-- The character that a one-letter escape stands for. -/
def escaped? (c : Char) : Option Char :=
  if c = '"' ∨ c = '\\' ∨ c = '/' then some c
  else if c = 'b' then some (Char.ofNat 8)
  else if c = 'f' then some (Char.ofNat 12)
  else if c = 'n' then some '\n'
  else if c = 'r' then some '\r'
  else if c = 't' then some '\t'
  else none

/-- The units of a text up to its closing quote, and what follows. -/
def units? : List Char → Option (Text × List Char)
  | [] => none
  | '"' :: rest => some ([], rest)
  | '\\' :: 'u' :: a :: b :: c :: d :: rest => do
      let code ← hexFour? a b c d
      let (more, left) ← units? rest
      return (joinUnit (TextUnit.ofCode code) more, left)
  | '\\' :: c :: rest => do
      let unit ← escaped? c
      let (more, left) ← units? rest
      return (.scalar unit :: more, left)
  | c :: rest =>
      if c.toNat < 0x20 ∨ c = '\\' then none
      else do
        let (more, left) ← units? rest
        return (.scalar c :: more, left)

/-- The places after a point, if there are any. -/
def places? : List Char → Option (List Char × List Char)
  | '.' :: c :: rest =>
      if Numeral.isDigit c then
        some (c :: rest.takeWhile Numeral.isDigit, rest.dropWhile Numeral.isDigit)
      else none
  | _ => none

/-- The exponent of a number, if there is one. -/
def power? : List Char → Option (Int × List Char)
  | mark :: rest =>
      let (sign, unsigned) := match rest with
        | '-' :: rest => (['-'], rest)
        | '+' :: rest => ([], rest)
        | rest => ([], rest)
      let digits := unsigned.takeWhile Numeral.isDigit
      if digits.isEmpty then none
      else (Numeral.exponent? (mark :: sign ++ digits)).map fun power =>
        (power, unsigned.dropWhile Numeral.isDigit)
  | [] => none

/-- A number without its sign: no leading zeros, and a whole number unless there
is a point or an exponent. -/
def number? (negative : Bool) (text : List Char) : Option (Json × List Char) :=
  let (whole, rest) := match text with
    | '0' :: rest => (['0'], rest)
    | text => (text.takeWhile Numeral.isDigit, text.dropWhile Numeral.isDigit)
  if whole.isEmpty then none
  else
    let (places, afterPlaces) := (places? rest).getD ([], rest)
    let (power, left) := match power? afterPlaces with
      | some (power, left) => (some power, left)
      | none => (none, afterPlaces)
    if places.isEmpty && power.isNone then
      (Numeral.digits? 10 whole).map fun value =>
        (.int (if negative then -(value : Int) else value), left)
    else some (.real (Numeral.decimal negative whole places (power.getD 0)), left)

/-- Remove a word from the front of a text. -/
def after? (word : String) (input : List Char) : Option (List Char) :=
  let letters := word.toList
  if letters.isPrefixOf input then some (input.drop letters.length) else none

def word? (input : List Char) : Option (Json × List Char) :=
  ((after? "null" input).map (null, ·)) <|>
  ((after? "true" input).map (bool true, ·)) <|>
  ((after? "false" input).map (bool false, ·)) <|>
  ((after? "NaN" input).map (real Binary64.nan, ·)) <|>
  ((after? "Infinity" input).map (real (Binary64.infinity false), ·)) <|>
  ((after? "-Infinity" input).map (real (Binary64.infinity true), ·))

inductive Refusal where
  | malformed
  | tooDeep
  deriving DecidableEq, Repr

/-- What was found; a text in which nothing was found is malformed. -/
def Refusal.require {α : Type} : Option α → Except Refusal α
  | some found => .ok found
  | none => .error malformed

/-- How deep arrays and objects nest at most.  A reader that calls itself for every level has a
stack of 1000 calls, of which those of its caller are in use already.  This stands for what is
left; the exact number is the caller's, and a document two levels deep is all that a
configuration needs. -/
def maxDepth : Nat := 990

mutual

/-- A value at the front of a text, and what follows.  `fuel` bounds the depth of
calls, and `depth` that of arrays and objects. -/
def readValue : (fuel depth : Nat) → List Char → Except Refusal (Json × List Char)
  | 0, _, _ => .error .malformed
  | fuel + 1, depth, input =>
      match word? input with
      | some found => .ok found
      | none =>
          match input, depth with
          | '"' :: rest, _ =>
              Refusal.require ((units? rest).map fun (units, left) => (text units, left))
          | '[' :: _, 0 | '\x7b' :: _, 0 => .error .tooDeep
          | '[' :: rest, depth + 1 =>
              match skipBlanks rest with
              | ']' :: left => .ok (array [], left)
              | rest => (readItems fuel depth rest).map fun (items, left) =>
                  (array items, left)
          | '\x7b' :: rest, depth + 1 =>
              match skipBlanks rest with
              | '\x7d' :: left => .ok (object [], left)
              | rest => (readFields fuel depth rest).map fun (fields, left) =>
                  (object (Table.ofList fields), left)
          | '-' :: rest, _ => Refusal.require (number? true rest)
          | rest, _ => Refusal.require (number? false rest)

/-- The values of an array up to its end. -/
def readItems : (fuel depth : Nat) → List Char → Except Refusal (List Json × List Char)
  | 0, _, _ => .error .malformed
  | fuel + 1, depth, input => do
      let (first, left) ← readValue fuel depth input
      match skipBlanks left with
      | ',' :: rest =>
          let (more, left) ← readItems fuel depth (skipBlanks rest)
          return (first :: more, left)
      | ']' :: left => return ([first], left)
      | _ => throw .malformed

/-- The fields of an object up to its end. -/
def readFields : (fuel depth : Nat) → List Char →
    Except Refusal (List (Text × Json) × List Char)
  | 0, _, _ => .error .malformed
  | fuel + 1, depth, input => do
      let '"' :: rest := input | throw .malformed
      let (name, left) ← Refusal.require (units? rest)
      let ':' :: rest := skipBlanks left | throw .malformed
      let (value, left) ← readValue fuel depth (skipBlanks rest)
      match skipBlanks left with
      | ',' :: rest =>
          let (more, left) ← readFields fuel depth (skipBlanks rest)
          return ((name, value) :: more, left)
      | '\x7d' :: left => return ([(name, value)], left)
      | _ => throw .malformed

end

/-- The document that a text is.  A call consumes a character or calls one that
does, which bounds their depth. -/
def read (input : List Char) : Except Refusal Json := do
  let (value, left) ← readValue (2 * input.length + 2) maxDepth (skipBlanks input)
  if (skipBlanks left).isEmpty then return value else throw .malformed

def ofBytes (content : Bytes) : Except Refusal Json :=
  match Utf8.decode? content with
  | some chars => read chars
  | none => .error .malformed

end Json

end Fieldbus
