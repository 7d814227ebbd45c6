import Fieldbus.Text.Quoted
import Fieldbus.Text.Utf8

/-!
# Reported names

Adapters and slaves, with their objects and entries, report their names as texts or
as bytes.  An engine decodes bytes or hands them on as they are; then a line shows
them in quotes.
-/

namespace Fieldbus

inductive ReportedName where
  | text (name : Text)
  | bytes (name : Bytes)
  deriving DecidableEq, Repr, Inhabited

namespace ReportedName

/-- The text of a name; bytes are read leniently. -/
def toText : ReportedName → Text
  | text name => name
  | bytes name => Text.ofChars (Utf8.decodeLossy name)

def decoded (name : ReportedName) : ReportedName :=
  text name.toText

@[simp] theorem toText_decoded (name : ReportedName) : name.decoded.toText = name.toText :=
  rfl

/-- A name as a line shows it. -/
def shown : ReportedName → Text
  | text name => name
  | bytes name => Quoted.bytes name

def isEmpty : ReportedName → Bool
  | text name => name.isEmpty
  | bytes name => name.isEmpty

end ReportedName

end Fieldbus
