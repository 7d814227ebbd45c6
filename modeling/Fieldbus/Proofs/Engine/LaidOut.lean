import Fieldbus.Proofs.Dialogue
import Fieldbus.Proofs.Engine.Delivery
import Fieldbus.Proofs.Engine.Ranges

/-!
# Images that are laid out

An engine lays out its image in one way: the outputs of all slaves, then the inputs, without a
gap.  Once it has, no request breaks that, and every range of outputs that holds a byte is sent
with the exchanges.
-/

namespace Fieldbus

open Fieldbus.Action

/-- An engine with the ranges of its outputs and inputs in slave order. -/
class Engine.Ranged (ε : Type) [Engine ε] extends Engine.Delivers ε where
  outputs : ε → List ImageRange
  inputs : ε → List ImageRange
  outputRange_eq : ∀ slave (engine : ε),
    Engine.outputRange slave engine = ofExcept (ImageRange.ofSlave (outputs engine) slave) engine
  inputRange_eq : ∀ slave (engine : ε),
    Engine.inputRange slave engine = ofExcept (ImageRange.ofSlave (inputs engine) slave) engine
  outputs_setImage : ∀ engine image, outputs (Engine.setImage engine image) = outputs engine
  inputs_setImage : ∀ engine image, inputs (Engine.setImage engine image) = inputs engine

open Engine.Delivers Engine.Ranged

/-- The ranges of an engine lie one after the other and make up its image, and an exchange sends
those of the outputs that hold a byte. -/
structure Engine.LaidOut {ε : Type} [Engine ε] [Engine.Ranged ε] (engine : ε) : Prop where
  arranged : ∃ lengths, outputs engine ++ inputs engine = ImageRange.arrange 0 lengths ∧
    (Engine.image engine).length = ImageRange.total lengths
  paired : (inputs engine).length = (outputs engine).length
  serves : ∀ {position : Nat} {range : ImageRange}, (outputs engine)[position]? = some range →
    range.length ≠ 0 → served engine position = some range

/-- What an exchange does to the image at an index: the bytes of all outputs stay. -/
def Engine.KeepsOutputs {ε : Type} [Engine ε] [Engine.Ranged ε] (before after : ε) : Prop :=
  outputs after = outputs before ∧ inputs after = inputs before ∧
    (Engine.image after).length = (Engine.image before).length ∧
    ∀ range ∈ outputs before, range.read (Engine.image after) = range.read (Engine.image before)

/-- The engine lays out its image, and keeps it laid out. -/
class Engine.LaysOut (ε : Type) [Engine ε] extends Engine.Ranged ε where
  laidOut_mapImage : ∀ {engine after : ε} {size : Int},
    Engine.mapImage engine = .ok size after → LaidOut after
  laidOut_request : ∀ {α : Type} {request : Action ε α}, IsRequest request →
    Moves (Preserve LaidOut) request
  laidOut_event : ∀ {change : ε → ε}, IsEvent change → ∀ engine, LaidOut engine →
    LaidOut (change engine)
  keepsOutputs_exchange : ∀ {engine after : ε} {timeout : Number} {wkc : Int}, LaidOut engine →
    Engine.exchange timeout engine = .ok wkc after → KeepsOutputs engine after
  keepsOutputs_expectedWkc : ∀ {engine after : ε} {wkc : Int},
    Engine.expectedWkc engine = .ok wkc after → KeepsOutputs engine after

namespace Engine

section LaidOut

variable {ε : Type} [Engine ε] [Ranged ε] {engine before between after : ε} {image : Bytes}

theorem LaidOut.setImage (laid : LaidOut engine)
    (lengthEq : image.length = (Engine.image engine).length) :
    LaidOut (Engine.setImage engine image) where
  arranged := by
    obtain ⟨lengths, rangesEq, sizeEq⟩ := laid.arranged
    refine ⟨lengths, ?_, ?_⟩
    · rw [outputs_setImage, inputs_setImage, rangesEq]
    · rw [image_setImage, lengthEq, sizeEq]
  paired := by rw [outputs_setImage, inputs_setImage, laid.paired]
  serves := by
    intro position range found nonzero
    rw [outputs_setImage] at found
    rw [served_setImage]
    exact laid.serves found nonzero

theorem KeepsOutputs.trans (first : KeepsOutputs before between)
    (second : KeepsOutputs between after) : KeepsOutputs before after := by
  obtain ⟨outputsFirst, inputsFirst, lengthFirst, readFirst⟩ := first
  obtain ⟨outputsSecond, inputsSecond, lengthSecond, readSecond⟩ := second
  refine ⟨outputsSecond.trans outputsFirst, inputsSecond.trans inputsFirst,
    lengthSecond.trans lengthFirst, ?_⟩
  intro range member
  have kept : range ∈ outputs between := by rwa [outputsFirst]
  exact (readSecond range kept).trans (readFirst range member)

theorem KeepsOutputs.of_eq (outputsEq : outputs after = outputs before)
    (inputsEq : inputs after = inputs before)
    (imageEq : Engine.image after = Engine.image before) : KeepsOutputs before after := by
  refine ⟨outputsEq, inputsEq, congrArg List.length imageEq, ?_⟩
  intro range _
  rw [imageEq]

namespace LaidOut

variable (laid : LaidOut engine)
include laid

/-- All ranges have their places in one arrangement, those of the outputs first. -/
theorem exists_lengths : ∃ lengths,
    (Engine.image engine).length = ImageRange.total lengths ∧
      (∀ (position : Nat) range, (outputs engine)[position]? = some range →
        (ImageRange.arrange 0 lengths)[position]? = some range) ∧
      ∀ (position : Nat) range, (inputs engine)[position]? = some range →
        (ImageRange.arrange 0 lengths)[(outputs engine).length + position]? = some range := by
  obtain ⟨lengths, rangesEq, sizeEq⟩ := laid.arranged
  refine ⟨lengths, sizeEq, ?_, ?_⟩
  · intro position range found
    have inside := (List.getElem?_eq_some_iff.mp found).1
    rw [← rangesEq, List.getElem?_append_left inside]
    exact found
  · intro position range found
    rw [← rangesEq, List.getElem?_append_right (Nat.le_add_right _ _), Nat.add_sub_cancel_left]
    exact found

variable {first second : Nat} {range other : ImageRange}

theorem outputs_stop_le (found : (outputs engine)[first]? = some range) :
    range.stop ≤ (Engine.image engine).length := by
  obtain ⟨lengths, sizeEq, placed, _⟩ := laid.exists_lengths
  have within := ImageRange.within_of_getElem?_arrange (placed first range found)
  omega

theorem inputs_stop_le (found : (inputs engine)[first]? = some range) :
    range.stop ≤ (Engine.image engine).length := by
  obtain ⟨lengths, sizeEq, _, placed⟩ := laid.exists_lengths
  have within := ImageRange.within_of_getElem?_arrange (placed first range found)
  omega

theorem outputs_apart (different : first ≠ second)
    (firstFound : (outputs engine)[first]? = some range)
    (secondFound : (outputs engine)[second]? = some other) : range.Apart other := by
  obtain ⟨lengths, _, placed, _⟩ := laid.exists_lengths
  exact ImageRange.apart_of_ne different (placed first range firstFound)
    (placed second other secondFound)

theorem outputs_apart_inputs (firstFound : (outputs engine)[first]? = some range)
    (secondFound : (inputs engine)[second]? = some other) : range.Apart other := by
  obtain ⟨lengths, _, outputsPlaced, inputsPlaced⟩ := laid.exists_lengths
  have inside := (List.getElem?_eq_some_iff.mp firstFound).1
  have different : first ≠ (outputs engine).length + second := by omega
  exact ImageRange.apart_of_ne different (outputsPlaced first range firstFound)
    (inputsPlaced second other secondFound)

theorem copyIn (datas : List Bytes) :
    (ImageRange.copyIn datas (inputs engine) (Engine.image engine)).length =
        (Engine.image engine).length ∧
      ∀ range ∈ outputs engine,
        range.read (ImageRange.copyIn datas (inputs engine) (Engine.image engine)) =
          range.read (Engine.image engine) := by
  have inside : ∀ range ∈ inputs engine, range.stop ≤ (Engine.image engine).length := by
    intro range member
    obtain ⟨position, found⟩ := List.mem_iff_getElem?.mp member
    exact laid.inputs_stop_le found
  obtain ⟨lengthEq, kept⟩ := ImageRange.copyIn_spec datas inside
  refine ⟨lengthEq, ?_⟩
  intro range member
  obtain ⟨position, found⟩ := List.mem_iff_getElem?.mp member
  apply ImageRange.read_congr
  intro index after before
  apply kept
  intro other otherMember
  obtain ⟨place, otherFound⟩ := List.mem_iff_getElem?.mp otherMember
  have apart := laid.outputs_apart_inputs found otherFound
  rcases apart with first | second
  · omega
  · omega

end LaidOut

end LaidOut

end Engine

end Fieldbus
