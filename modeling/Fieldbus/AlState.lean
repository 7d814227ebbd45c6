import Fieldbus.Text.Numeral

/-!
# Application layer states

A state code is a state with an optional error flag.  Codes are integers, since
slaves and callers may give any.
-/

namespace Fieldbus

inductive AlState where
  | none | init | preOp | boot | safeOp | op
  deriving DecidableEq, Repr, Inhabited

namespace AlState

def code : AlState → Int
  | none => 0x00
  | init => 0x01
  | preOp => 0x02
  | boot => 0x03
  | safeOp => 0x04
  | op => 0x08

def all : List AlState := [none, init, preOp, boot, safeOp, op]

def ofCode? (code : Int) : Option AlState :=
  all.find? fun state => state.code = code

def text : AlState → String
  | none => "NONE"
  | init => "INIT"
  | preOp => "PRE-OP"
  | boot => "BOOT"
  | safeOp => "SAFE-OP"
  | op => "OP"

/-- Whether a state code carries the error flag, its bit 4. -/
def hasError (code : Int) : Bool :=
  code / 0x10 % 2 = 1

/-- The name of a state code, its error flag apart; an unlisted code is written
in hexadecimal. -/
def codeText (code : Int) : String :=
  let base := if hasError code then code - 0x10 else code
  let name := match ofCode? base with
    | some state => state.text
    | Option.none => "0x" ++ Numeral.hex 2 code
  if hasError code then name ++ "+ERR" else name

end AlState

end Fieldbus
