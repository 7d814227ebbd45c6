import Fieldbus.Pdo.Values
import Fieldbus.Proofs.Outcome
import Fieldbus.Proofs.Value.Encoding

/-!
# Classes of faults

How callers tell faults apart: by their class, whatever they say in detail.
-/

namespace Fieldbus

open Fieldbus.Action

/-- The class of a fault.  Faults of a codec fall into four classes. -/
inductive FaultClass where
  | connection | communication | configuration | sdoRead | sdoWrite | objectList
  | objectDescription | entryList | unexpectedData | emptyBuffer | bufferTooSmall
  | unsupportedType | unsupportedValue | slaveNotFound | indexNotFound | entryNotFound
  | wrongDirection | valueMismatch | alState
  | stack (kind : StackErrorKind)
  | accident (cause : Accident)
  deriving DecidableEq, Repr

def Fault.faultClass : Fault → FaultClass
  | .connection _ => .connection
  | .communication _ => .communication
  | .configuration _ => .configuration
  | .sdoRead .. => .sdoRead
  | .sdoWrite .. => .sdoWrite
  | .objectList .. => .objectList
  | .objectDescription .. => .objectDescription
  | .entryList .. => .entryList
  | .unexpectedData .. => .unexpectedData
  | .codec .emptyBuffer => .emptyBuffer
  | .codec (.bufferTooSmall ..) => .bufferTooSmall
  | .codec (.unsupportedType ..) => .unsupportedType
  | .codec (.unsupportedValue ..) => .unsupportedValue
  | .slaveNotFound _ => .slaveNotFound
  | .indexNotFound .. => .indexNotFound
  | .entryNotFound .. => .entryNotFound
  | .wrongDirection .. => .wrongDirection
  | .valueMismatch .. => .valueMismatch
  | .alState .. => .alState
  | .stack error => .stack error.kind
  | .accident cause => .accident cause

def Action.faultClass? {σ α : Type} : EStateM.Result Fault σ α → Option FaultClass
  | .ok _ _ => none
  | .error fault _ => some fault.faultClass

/-- Encoding refuses a value, or meets a text without an encoding. -/
theorem Value.encode_error_class {value : Value} {bitOffset : Int} {fault : Fault}
    (refused : value.encode bitOffset = .error fault) :
    fault.faultClass = .unsupportedValue ∨ fault.faultClass = .accident .encoding := by
  rcases encode_error_cases refused with ⟨objection, rfl⟩ | ⟨rfl, _⟩
  · exact Or.inl rfl
  · exact Or.inr rfl

theorem PdoMap.checkWrite_error_class {slave : Int} {map : PdoMap} {entry : EntryIndex}
    {value : Value} {fault : Fault} (refused : map.checkWrite slave entry value = .error fault) :
    fault.faultClass = .entryNotFound ∨ fault.faultClass = .wrongDirection ∨
      fault.faultClass = .valueMismatch ∨ fault.faultClass = .unsupportedValue ∨
      fault.faultClass = .accident .encoding := by
  rw [checkWrite] at refused
  split at refused
  · cases refused
    exact Or.inl rfl
  · rename_i info found
    by_cases direction : info.smType = .outputs
    · rw [if_neg (by simpa using direction)] at refused
      split at refused
      · cases refused
        exact Or.inr (Or.inr (Or.inl rfl))
      · split at refused
        · have unwritten := except_map_eq_error_iff.mp refused
          exact Or.inr (Or.inr (Or.inr (Value.encode_error_class unwritten)))
        · rcases except_bind_eq_error_iff.mp refused with unwritten | ⟨data, _, misfit⟩
          · exact Or.inr (Or.inr (Or.inr (Value.encode_error_class unwritten)))
          · split at misfit
            · cases misfit
              exact Or.inr (Or.inr (Or.inl rfl))
            · cases misfit
    · rw [if_pos (by simpa using direction)] at refused
      cases refused
      exact Or.inr (Or.inl rfl)

end Fieldbus
