import Fieldbus.Proofs.Moves
import Fieldbus.Segment.MemoryEngine

/-!
# Time that passes on a segment

Uploads and exchanges take time from the scripts of a segment.  That changes the scripts and the
clock and no more, so whatever is seen of a segment without them is kept.
-/

namespace Fieldbus

namespace Segment

open Fieldbus.Action

/-- The relation allows that time passes, and that the scripts of durations are used up. -/
class AllowsPassing (relation : Segment → Segment → Prop) : Prop
    extends IsPreorder Segment relation where
  passes : ∀ segment seconds, relation segment (segment.pass seconds)
  uploadMicros : ∀ segment uploadMicros, relation segment { segment with uploadMicros }
  exchangeMicros : ∀ segment exchangeMicros, relation segment { segment with exchangeMicros }

instance : AllowsPassing (Keep Segment.slaves) where
  passes _ _ := rfl
  uploadMicros _ _ := rfl
  exchangeMicros _ _ := rfl

variable {relation : Segment → Segment → Prop} [AllowsPassing relation]

theorem moves_passMicros (micros : Number) : Moves relation (passMicros micros) := by
  refine Moves.bind (Moves.ofAccident _) ?_
  intro seconds
  exact Moves.modify fun segment => AllowsPassing.passes segment seconds

theorem moves_passUpload : Moves relation passUpload := by
  refine Moves.bind Moves.get ?_
  intro segment
  refine Moves.bind (Moves.modify fun segment => AllowsPassing.uploadMicros segment _) ?_
  intro _
  exact moves_passMicros _

theorem moves_passExchange : Moves relation passExchange := by
  refine Moves.bind Moves.get ?_
  intro segment
  refine Moves.bind (Moves.modify fun segment => AllowsPassing.exchangeMicros segment _) ?_
  intro _
  exact moves_passMicros _

end Segment

end Fieldbus
