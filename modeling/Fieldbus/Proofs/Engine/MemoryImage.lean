import Fieldbus.Proofs.Engine.LaidOut

/-!
# The image of an engine in memory

An engine in memory lays out its image from the sizes of the slaves of its segment, and no
request changes their number.
-/

namespace Fieldbus

open Fieldbus.Action

namespace Segment

def size (segment : Segment) : Nat :=
  segment.slaves.length

instance : AllowsPassing (Keep size) where
  passes _ _ := rfl
  uploadMicros _ _ := rfl
  exchangeMicros _ _ := rfl

theorem keepsSize_of_keepsSlaves {α : Type} {action : Action Segment α}
    (keeps : Moves (Keep Segment.slaves) action) : Moves (Keep size) action := by
  intro segment
  exact congrArg List.length (keeps segment)

theorem size_setSlave (segment : Segment) (place : Nat) (slave : SimulatedSlave) :
    (segment.setSlave place slave).size = segment.size :=
  List.length_set

theorem size_takeState (segment : Segment) (state : Int) :
    (segment.takeState state).size = segment.size :=
  List.length_map _

theorem size_findState (segment : Segment) (state : Int) :
    (segment.findState state).2.size = segment.size := by
  rw [findState]
  split
  · rfl
  · rfl

end Segment

namespace MemoryEngine

instance : Engine.Ranged MemoryEngine where
  outputs := outputs
  inputs := inputs
  outputRange_eq _ _ := rfl
  inputRange_eq _ _ := rfl
  outputs_setImage _ _ := rfl
  inputs_setImage _ _ := rfl

open Engine

/-- What an engine in memory has laid out. -/
def plan (engine : MemoryEngine) : List ImageRange × List ImageRange × Nat × Nat :=
  (engine.outputs, engine.inputs, engine.image.length, engine.segment.size)

theorem laidOut_of_keep {before after : MemoryEngine} (kept : Keep plan before after)
    (laid : LaidOut before) : LaidOut after := by
  simp only [Keep, plan, Prod.mk.injEq] at kept
  obtain ⟨outputsEq, inputsEq, lengthEq, sizeEq⟩ := kept
  refine ⟨?_, ?_, ?_⟩
  · obtain ⟨lengths, rangesEq, totalEq⟩ := laid.arranged
    refine ⟨lengths, ?_, lengthEq.trans totalEq⟩
    show after.outputs ++ after.inputs = _
    rw [outputsEq, inputsEq]
    exact rangesEq
  · show after.inputs.length = after.outputs.length
    rw [outputsEq, inputsEq]
    exact laid.paired
  · intro position range found nonzero
    have kept : (Ranged.outputs before)[position]? = some range := by
      show before.outputs[position]? = some range
      rw [← outputsEq]
      exact found
    have serves := laid.serves kept nonzero
    show (if position < after.segment.size then after.outputs[position]? else none) = some range
    rw [sizeEq, outputsEq]
    exact serves

section Plan

variable {α : Type}

theorem keepsPlan_inSegment {action : Action Segment α} (keeps : Moves (Keep Segment.size) action) :
    Moves (Keep plan) (inSegment action) := by
  refine Moves.within_along keeps ?_
  intro engine segment sizeEq
  exact congrArg (engine.outputs, engine.inputs, engine.image.length, ·) sizeEq

theorem keepsInputs_inSegment (action : Action Segment α) :
    Moves (Keep inputs) (inSegment action) :=
  Moves.within fun _ _ => rfl

theorem keepsPlan_change {update : Segment → Segment}
    (keeps : ∀ segment, (update segment).size = segment.size) : Moves (Keep plan) (change update) :=
  keepsPlan_inSegment (Moves.modify keeps)

section Look

variable {relation : MemoryEngine → MemoryEngine → Prop} [IsPreorder MemoryEngine relation]

theorem moves_slaveAt (slave : Int) : Moves relation (slaveAt slave) := by
  refine Moves.bind Moves.get ?_
  intro engine
  split
  · exact Moves.pure _
  · exact Moves.throw _

theorem moves_objectAt (slave : SimulatedSlave) (item : Int) :
    Moves relation (objectAt slave item) := by
  rw [objectAt]
  split
  · exact Moves.pure _
  · exact Moves.throw _

end Look

theorem keepsPlan_upload (slave : Int) (entry : EntryIndex) (complete : Bool) :
    Moves (Keep plan) (upload slave entry complete) := by
  refine Moves.bind (moves_slaveAt slave) ?_
  intro located
  refine Moves.bind (keepsPlan_inSegment Segment.moves_passUpload) ?_
  intro _
  dsimp only
  refine Moves.bind (keepsPlan_change fun segment => Segment.size_setSlave segment _ _) ?_
  intro _
  split
  · exact Moves.pure _
  · exact Moves.throw _
  · exact Moves.throw _

theorem keepsPlan_download (slave : Int) (entry : EntryIndex) (data : Bytes) :
    Moves (Keep plan) (download slave entry data) := by
  refine Moves.bind (moves_slaveAt slave) ?_
  intro located
  dsimp only
  split
  · exact Moves.throw _
  · exact keepsPlan_change fun segment => Segment.size_setSlave segment _ _

theorem keepsPlan_checkState (state : Int) (timeout : Number) :
    Moves (Keep plan) (checkState state timeout) := by
  refine Moves.bind (keepsPlan_inSegment fun segment => Segment.size_findState segment state) ?_
  intro found
  split
  · refine Moves.bind (Moves.ofAccident _) ?_
    intro duration
    refine Moves.bind (keepsPlan_change fun _ => rfl) ?_
    intro _
    exact Moves.pure _
  · exact Moves.pure _

end Plan

theorem length_sendOutputs (image : Bytes) (slaves : List SimulatedSlave)
    (ranges : List ImageRange) : (sendOutputs image slaves ranges).length = slaves.length := by
  induction slaves generalizing ranges with
  | nil => cases ranges <;> rfl
  | cons slave slaves ih =>
      cases ranges with
      | nil => rfl
      | cons range ranges => simp [sendOutputs, ih]

/-- What an exchange makes of an engine once the working counter is known. -/
def exchanged (engine : MemoryEngine) : MemoryEngine :=
  let slaves := sendOutputs engine.image engine.segment.slaves engine.outputs
  { engine with
    segment := { engine.segment with slaves }
    image := ImageRange.copyIn (slaves.map (·.inputData)) engine.inputs engine.image }

theorem laidOut_exchanged {engine : MemoryEngine} (laid : LaidOut engine) :
    LaidOut engine.exchanged := by
  refine laidOut_of_keep ?_ laid
  have lengthEq : (ImageRange.copyIn
      ((sendOutputs engine.image engine.segment.slaves engine.outputs).map (·.inputData))
      engine.inputs engine.image).length = engine.image.length := (laid.copyIn _).1
  simp only [Keep, plan, exchanged, Segment.size, lengthEq, length_sendOutputs]

theorem laidOut_exchange : Moves (Preserve LaidOut) exchange := by
  have weaken {α : Type} {action : Action MemoryEngine α} (keeps : Moves (Keep plan) action) :
      Moves (Preserve LaidOut) action := fun engine => laidOut_of_keep (keeps engine)
  refine Moves.bind (weaken (keepsPlan_inSegment ?_)) ?_
  · exact Segment.moves_passExchange
  intro _
  refine Moves.bind (weaken (keepsPlan_inSegment ?_)) ?_
  · exact Segment.keepsSize_of_keepsSlaves Segment.keeps_nextWkc
  intro answer
  split
  · exact Moves.throw _
  · refine Moves.bind (Moves.modify fun engine => laidOut_exchanged) ?_
    intro _
    exact Moves.pure _

theorem laidOut_mapImage {engine after : MemoryEngine} {size : Int}
    (mapped : mapImage engine = .ok size after) : LaidOut after := by
  rw [mapImage, bind_of_ok (get_apply engine)] at mapped
  cases failing : engine.segment.mapError with
  | some error =>
      simp only [failing] at mapped
      cases mapped
  | none =>
      simp only [failing] at mapped
      cases mapped
      refine ⟨⟨engine.segment.slaves.map SimulatedSlave.outputBytes ++
        engine.segment.slaves.map SimulatedSlave.inputBytes, ?_, ?_⟩, ?_, ?_⟩
      · rw [ImageRange.arrange_append, Nat.zero_add]
        rfl
      · rw [ImageRange.total_append]
        exact Bytes.length_zeros _
      · simp [Ranged.outputs, Ranged.inputs]
      · intro position range found _
        have inside := (List.getElem?_eq_some_iff.mp found).1
        have short : position < engine.segment.slaves.length := by
          simpa [Ranged.outputs] using inside
        show (if position < engine.segment.slaves.length then _ else none) = some range
        rw [if_pos short]
        exact found

theorem laidOut_request {α : Type} {request : Action MemoryEngine α} (asked : IsRequest request) :
    Moves (Preserve LaidOut) request := by
  have weaken {α : Type} {action : Action MemoryEngine α} (keeps : Moves (Keep plan) action) :
      Moves (Preserve LaidOut) action := fun engine => laidOut_of_keep (keeps engine)
  cases asked with
  | connect adapter =>
      show Moves (Preserve LaidOut) connect
      refine Moves.bind Moves.get ?_
      intro engine
      split
      · exact Moves.throw _
      · exact Moves.pure _
  | disconnect => exact Moves.pure ()
  | enumerate => exact Moves.of_unmoved fun _ => rfl
  | mapImage =>
      intro engine laid
      show LaidOut (final (mapImage engine))
      cases mapped : mapImage engine with
      | ok size after => exact laidOut_mapImage mapped
      | error fault after =>
          rw [mapImage, bind_of_ok (get_apply engine)] at mapped
          cases failing : engine.segment.mapError with
          | some error =>
              simp only [failing] at mapped
              cases mapped
              exact laid
          | none =>
              simp only [failing] at mapped
              cases mapped
  | configureClocks => exact Moves.pure ()
  | slaveInfo slave =>
      refine Moves.bind (moves_slaveAt slave) ?_
      intro located
      exact Moves.pure _
  | requestState state =>
      exact weaken (keepsPlan_change fun segment => Segment.size_takeState segment state)
  | checkState state timeout => exact weaken (keepsPlan_checkState state timeout)
  | readState => exact Moves.of_unmoved fun _ => rfl
  | slaveState slave =>
      refine Moves.bind (moves_slaveAt slave) ?_
      intro located
      exact Moves.pure _
  | upload slave entry complete size timeout => exact weaken (keepsPlan_upload slave entry complete)
  | download slave entry complete data timeout => exact weaken (keepsPlan_download slave entry data)
  | objectList slave =>
      refine Moves.bind (moves_slaveAt slave) ?_
      intro located
      dsimp only
      split
      · exact Moves.throw _
      · exact Moves.pure _
  | objectDescription slave item =>
      refine Moves.bind (moves_slaveAt slave) ?_
      intro located
      dsimp only
      split
      · exact Moves.throw _
      · exact Moves.bind (moves_objectAt _ _) fun _ => Moves.pure _
  | entryList slave item =>
      refine Moves.bind (moves_slaveAt slave) ?_
      intro located
      dsimp only
      split
      · exact Moves.throw _
      · exact Moves.bind (moves_objectAt _ _) fun _ => Moves.pure _
  | expectedWkc => exact Moves.of_unmoved fun _ => rfl
  | outputRange slave => exact Moves.bind Moves.get fun _ => Moves.ofExcept _
  | inputRange slave => exact Moves.bind Moves.get fun _ => Moves.ofExcept _
  | exchange timeout => exact laidOut_exchange

theorem keepsOutputs_exchange {engine after : MemoryEngine} {wkc : Int} (laid : LaidOut engine)
    (succeeded : exchange engine = .ok wkc after) : KeepsOutputs engine after := by
  obtain ⟨_, passed, passing, rest⟩ := bind_eq_ok_iff.mp succeeded
  obtain ⟨answer, answered, answering, rest⟩ := bind_eq_ok_iff.mp rest
  have passKept : Keep load engine passed :=
    (keeps_inSegment Segment.moves_passExchange).of_ok passing
  have answerKept : Keep load passed answered :=
    (keeps_inSegment Segment.keeps_nextWkc).of_ok answering
  have inputsPass : Keep inputs engine passed := (keepsInputs_inSegment _).of_ok passing
  have inputsAnswer : Keep inputs passed answered := (keepsInputs_inSegment _).of_ok answering
  have kept : answered.load = engine.load := answerKept.trans passKept
  simp only [load, Prod.mk.injEq] at kept
  obtain ⟨_, outputsEq, imageEq⟩ := kept
  have inputsEq := inputsAnswer.trans inputsPass
  cases answer with
  | none => cases rest
  | some wkc =>
      cases rest
      obtain ⟨lengthEq, readEq⟩ := laid.copyIn
        ((sendOutputs answered.image answered.segment.slaves answered.outputs).map (·.inputData))
      refine ⟨outputsEq, inputsEq, ?_, ?_⟩
      · show (ImageRange.copyIn _ answered.inputs answered.image).length = _
        rw [inputsEq, imageEq]
        rw [imageEq] at lengthEq
        exact lengthEq
      · intro range member
        show range.read (ImageRange.copyIn _ answered.inputs answered.image) = _
        have same := readEq range member
        rw [inputsEq, imageEq]
        rw [imageEq] at same
        exact same

instance : Engine.LaysOut MemoryEngine where
  laidOut_mapImage := laidOut_mapImage
  laidOut_request := laidOut_request
  laidOut_event told engine laid := by
    cases told with
    | taskStarted => exact laid
    | taskJoined => exact laid
    | wait seconds => exact laidOut_of_keep (by rfl) laid
  keepsOutputs_exchange := keepsOutputs_exchange
  keepsOutputs_expectedWkc succeeded := by
    cases succeeded
    exact KeepsOutputs.of_eq rfl rfl rfl

end MemoryEngine

end Fieldbus
