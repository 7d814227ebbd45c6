import Fieldbus.Text.Unit

/-!
# Lines of a text

A line ends at a line feed, a carriage return or both, or at one of the other control
characters and separators that end lines or paragraphs.
-/

namespace Fieldbus

namespace Text

def isLineEnd (unit : TextUnit) : Bool :=
  let code := unit.code
  (0x0a ≤ code && code ≤ 0x0d) || (0x1c ≤ code && code ≤ 0x1e) || code = 0x85 ||
    code = 0x2028 || code = 0x2029

/-- The lines of a text without their ends.  After the last end there is one more line
only if it is not empty. -/
def lines : Text → List Text
  | [] => []
  | .scalar '\r' :: .scalar '\n' :: rest => [] :: lines rest
  | unit :: rest =>
      if isLineEnd unit then [] :: lines rest
      else
        match lines rest with
        | [] => [[unit]]
        | line :: others => (unit :: line) :: others

end Text

end Fieldbus
