import Fieldbus.Text.Printable
import Fieldbus.Text.Unit

/-!
# Quoted texts and byte strings

Values are shown in messages with quotes around texts and bytes.  Single quotes
are used unless the content has single but no double ones.  The quote in use and
the backslash are escaped, and so is what has no printed form.
-/

namespace Fieldbus

namespace Quoted

/-- `digits` lower-case hexadecimal digits after a backslash and a mark. -/
def escape (mark : Char) (digits : Nat) (code : Nat) : List Char :=
  let written := Nat.toDigits 16 code
  '\\' :: mark :: (List.replicate (digits - written.length) '0' ++ written)

/-- The escapes that texts and byte strings share. -/
def shared? (quote : Char) (code : Nat) : Option (List Char) :=
  if code = quote.toNat ∨ code = '\\'.toNat then some ['\\', Char.ofNat code]
  else if code = 9 then some ['\\', 't']
  else if code = 10 then some ['\\', 'n']
  else if code = 13 then some ['\\', 'r']
  else none

def unit (quote : Char) (unit : TextUnit) : List Char :=
  let code := unit.code
  match shared? quote code with
  | some escaped => escaped
  | none =>
      match unit with
      | .surrogate _ => escape 'u' 4 code
      | .scalar c =>
          if Printable.hidden code then
            if code < 0x100 then escape 'x' 2 code
            else if code < 0x10000 then escape 'u' 4 code
            else escape 'U' 8 code
          else [c]

def byte (quote : Char) (byte : UInt8) : List Char :=
  let code := byte.toNat
  match shared? quote code with
  | some escaped => escaped
  | none => if code < 0x20 ∨ 0x7f ≤ code then escape 'x' 2 code else [Char.ofNat code]

/-- The quote to use for content with these codes. -/
def mark (codes : List Nat) : Char :=
  if codes.contains 39 && !codes.contains 34 then '"' else Char.ofNat 39

def text (units : Text) : String :=
  let quote := mark (units.map TextUnit.code)
  String.ofList (quote :: (units.flatMap (unit quote) ++ [quote]))

def bytes (content : Bytes) : String :=
  let quote := mark (content.map UInt8.toNat)
  String.ofList ('b' :: quote :: (content.flatMap (byte quote) ++ [quote]))

/-- The bytes of a buffer, where single quotes are escaped whatever quote is in
use. -/
def buffer (content : Bytes) : String :=
  let quote := mark (content.map UInt8.toNat)
  let single := Char.ofNat 39
  String.ofList ('b' :: quote :: (content.flatMap (byte single) ++ [quote]))

end Quoted

end Fieldbus
