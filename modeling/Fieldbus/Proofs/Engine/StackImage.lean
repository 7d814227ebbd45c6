import Fieldbus.Proofs.Engine.MemoryImage

/-!
# The image of an engine over a stack

An engine over the stack of a segment lays out its image from what the slaves report, and gives
it up when it is closed.  Slaves without outputs get none.
-/

namespace Fieldbus

open Fieldbus.Action Engine.Ranged

namespace Segment

theorem keepsSize_failIf (error : Option StackError) : Moves (Keep size) (failIf error) := by
  cases error with
  | none => exact Moves.pure ()
  | some error => exact Moves.throw _

theorem keepsSize_mapImage : Moves (Keep size) (Stack.mapImage (σ := Segment)) := by
  refine Moves.bind Moves.get ?_
  intro segment
  refine Moves.bind (keepsSize_failIf _) ?_
  intro _
  exact Moves.pure _

theorem keepsSize_request {take : Segment → Segment}
    (keeps : ∀ segment, (take segment).size = segment.size) : Moves (Keep size) (request take) := by
  refine Moves.bind (fun _ => rfl) ?_
  intro wkc
  split
  · refine Moves.bind (Moves.modify keeps) ?_
    intro _
    exact Moves.pure _
  · refine Moves.bind (Moves.pure _) ?_
    intro _
    exact Moves.pure _

theorem keepsSize_awaitState (state micros : Int) : Moves (Keep size) (awaitState state micros) := by
  refine Moves.bind (Moves.ofAccident _) ?_
  intro timeout
  refine Moves.bind (fun segment => size_findState segment state) ?_
  intro found
  split
  · refine Moves.bind (Moves.modify fun _ => rfl) ?_
    intro _
    exact Moves.pure _
  · refine Moves.bind (Moves.pure _) ?_
    intro _
    exact Moves.pure _

theorem keepsSize_stackUpload (place : Nat) (entry : EntryIndex) (complete : Bool) :
    Moves (Keep size) (stackUpload place entry complete) := by
  refine Moves.bind moves_passUpload ?_
  intro _
  refine Moves.bind Moves.get ?_
  intro segment
  dsimp only
  refine Moves.bind (Moves.modify fun segment => size_setSlave segment _ _) ?_
  intro _
  split
  · exact Moves.pure _
  · exact Moves.throw _
  · exact Moves.throw _

theorem keepsSize_stackDownload (place : Nat) (entry : EntryIndex) (data : Bytes) :
    Moves (Keep size) (stackDownload place entry data) := by
  refine Moves.bind Moves.get ?_
  intro segment
  dsimp only
  split
  · exact Moves.throw _
  · exact Moves.modify fun segment => size_setSlave segment _ _

theorem size_pushOutputs (image : Bytes) (place : Nat) (ranges : List ImageRange)
    (segment : Segment) : (StackEngine.pushOutputs image place ranges segment).size = segment.size := by
  induction ranges generalizing place segment with
  | nil => rfl
  | cons range rest ih =>
      rw [StackEngine.pushOutputs, ih]
      split
      · rfl
      · exact size_setSlave segment place _

end Segment

namespace StackEngine

instance : Engine.Ranged (StackEngine Segment) where
  outputs := outputs
  inputs := inputs
  outputRange_eq _ _ := rfl
  inputRange_eq _ _ := rfl
  outputs_setImage _ _ := rfl
  inputs_setImage _ _ := rfl

open Engine

/-- What an engine over a segment has laid out. -/
def plan (engine : StackEngine Segment) : List ImageRange × List ImageRange × Nat × Nat :=
  (engine.outputs, engine.inputs, engine.image.length, engine.stack.size)

theorem served_eq (engine : StackEngine Segment) (position : Nat) :
    engine.served position =
      ((engine.outputs.take engine.stack.size)[position]?).filter (·.length ≠ 0) := by
  rw [served, pushed, if_pos (Nat.zero_le _), Nat.sub_zero]
  rfl

theorem laidOut_of_keep {before after : StackEngine Segment} (kept : Keep plan before after)
    (laid : LaidOut before) : LaidOut after := by
  simp only [Keep, plan, Prod.mk.injEq] at kept
  obtain ⟨outputsEq, inputsEq, lengthEq, sizeEq⟩ := kept
  refine ⟨?_, ?_, ?_⟩
  · obtain ⟨lengths, rangesEq, totalEq⟩ := laid.arranged
    refine ⟨lengths, ?_, lengthEq.trans totalEq⟩
    show after.outputs ++ after.inputs = _
    rw [outputsEq, inputsEq]
    exact rangesEq
  · show after.inputs.length = after.outputs.length
    rw [outputsEq, inputsEq]
    exact laid.paired
  · intro position range found nonzero
    have kept : (Ranged.outputs before)[position]? = some range := by
      show before.outputs[position]? = some range
      rw [← outputsEq]
      exact found
    have serves : before.served position = some range := laid.serves kept nonzero
    show after.served position = some range
    rw [served_eq] at serves ⊢
    rw [sizeEq, outputsEq, serves]

theorem keepsPlan_call {α : Type} {action : Action Segment α}
    (keeps : Moves (Keep Segment.size) action) : Moves (Keep plan) (call action) := by
  refine Moves.within_along keeps ?_
  intro engine segment sizeEq
  exact congrArg (engine.outputs, engine.inputs, engine.image.length, ·) sizeEq

theorem keepsPlan_connect (adapter : Payload) :
    Moves (Keep plan) (connect (σ := Segment) adapter) := by
  refine moves_connect (fun _ _ => rfl) (fun _ _ => rfl) ?_ adapter
  intro name
  refine keepsPlan_call (Moves.bind Moves.get ?_)
  intro segment
  exact Segment.keepsSize_failIf _

theorem laidOut_disconnect : Moves (Preserve LaidOut) (disconnect (σ := Segment)) := by
  intro engine _
  rw [disconnect_apply]
  refine ⟨⟨[], rfl, rfl⟩, rfl, ?_⟩
  intro position range found _
  cases found

theorem laidOut_arranged (engine : StackEngine Segment) : LaidOut engine.arranged := by
  refine ⟨⟨(Stack.slaves engine.stack).map (·.output.length) ++
    (Stack.slaves engine.stack).map (·.input.length), ?_, ?_⟩, ?_, ?_⟩
  · rw [ImageRange.arrange_append, Nat.zero_add]
    rfl
  · rw [ImageRange.total_append]
    exact Bytes.length_zeros _
  · simp [Ranged.outputs, Ranged.inputs, arranged]
  · intro position range found nonzero
    have inside := (List.getElem?_eq_some_iff.mp found).1
    have slaveCount : (Stack.slaves engine.stack).length = engine.stack.size := List.length_map _
    have short : position < engine.stack.size := by
      simpa [Ranged.outputs, arranged, slaveCount] using inside
    show engine.arranged.served position = some range
    have taken : (engine.arranged.outputs.take engine.stack.size)[position]? = some range := by
      rw [List.getElem?_take, if_pos short]
      exact found
    rw [served_eq]
    show ((engine.arranged.outputs.take engine.stack.size)[position]?).filter _ = some range
    rw [taken]
    simp [nonzero]

theorem laidOut_mapImage {engine after : StackEngine Segment} {size : Int}
    (mapped : mapImage engine = .ok size after) : LaidOut after := by
  obtain ⟨_, opened, _, rest⟩ := bind_eq_ok_iff.mp mapped
  obtain ⟨total, called, _, rest⟩ := bind_eq_ok_iff.mp rest
  cases rest
  exact laidOut_arranged called

theorem laidOut_mapImage_moves : Moves (Preserve LaidOut) (mapImage (σ := Segment)) := by
  intro engine laid
  cases mapCourse engine with
  | refused outcome =>
      rw [outcome]
      exact laid
  | mapped mapping outcome =>
      rw [outcome]
      exact laidOut_arranged _
  | @failed fault cause stack mapping outcome =>
      have sizeKept : Keep Segment.size engine.stack stack :=
        Segment.keepsSize_mapImage.of_error mapping
      rw [outcome]
      exact laidOut_of_keep
        (congrArg (engine.outputs, engine.inputs, engine.image.length, ·) sizeKept) laid

theorem keepsOutputs_takeIn {engine : StackEngine Segment} (laid : LaidOut engine) :
    KeepsOutputs engine engine.takeIn := by
  obtain ⟨lengthEq, readEq⟩ := laid.copyIn ((Stack.slaves engine.stack).map StackSlave.input)
  exact ⟨rfl, rfl, lengthEq, readEq⟩

theorem laidOut_takeIn {engine : StackEngine Segment} (laid : LaidOut engine) :
    LaidOut engine.takeIn := by
  refine laidOut_of_keep ?_ laid
  have lengthEq : engine.takeIn.image.length = engine.image.length :=
    (laid.copyIn ((Stack.slaves engine.stack).map StackSlave.input)).1
  exact congrArg (engine.outputs, engine.inputs, ·, engine.stack.size) lengthEq

theorem keepsPlan_receive (micros : Int) :
    Moves (Keep plan) (call (Stack.receive (σ := Segment) micros)) :=
  keepsPlan_call (Segment.keepsSize_of_keepsSlaves (keeps_receive micros))

theorem keepsSize_routine {α : Type} {action : Action Segment α}
    (routine : Stack.IsRoutine action) : Moves (Keep Segment.size) action := by
  cases routine with
  | enumerate => exact Moves.of_unmoved fun _ => rfl
  | configureClocks => exact Moves.of_unmoved fun _ => rfl
  | writeState state => exact Segment.keepsSize_request fun segment => segment.size_takeState state
  | writeSlaveState place state =>
      exact Segment.keepsSize_request fun segment => segment.size_setSlave place _
  | checkState state micros => exact Segment.keepsSize_awaitState state micros
  | readState => exact Moves.of_unmoved fun _ => rfl
  | objects place =>
      refine Moves.bind Moves.get ?_
      intro segment
      exact Moves.bind (Segment.keepsSize_failIf _) fun _ => Moves.pure _
  | entries place object =>
      refine Moves.bind Moves.get ?_
      intro segment
      exact Moves.bind (Segment.keepsSize_failIf _) fun _ => Moves.pure _
  | upload place entry size complete micros => exact Segment.keepsSize_stackUpload _ _ _
  | download place entry data complete micros => exact Segment.keepsSize_stackDownload _ _ _
  | pushOutputs image place ranges => exact Moves.modify (Segment.size_pushOutputs image place ranges)
  | send => exact Moves.modify fun _ => rfl
  | receive micros => exact Segment.keepsSize_of_keepsSlaves (keeps_receive micros)

instance : AllowsRoutine (Preserve (LaidOut (ε := StackEngine Segment))) where
  calls routine engine := laidOut_of_keep (keepsPlan_call (keepsSize_routine routine) engine)
  objects _ _ := laidOut_of_keep rfl
  takesIn _ := laidOut_takeIn

theorem laidOut_request {α : Type} {request : Action (StackEngine Segment) α}
    (asked : IsRequest request) : Moves (Preserve LaidOut) request := by
  cases asked with
  | connect adapter => exact fun engine => laidOut_of_keep (keepsPlan_connect adapter engine)
  | disconnect => exact laidOut_disconnect
  | mapImage => exact laidOut_mapImage_moves
  | enumerate => exact moves_request .enumerate
  | configureClocks => exact moves_request .configureClocks
  | slaveInfo slave => exact moves_request (.slaveInfo slave)
  | requestState state => exact moves_request (.requestState state)
  | checkState state timeout => exact moves_request (.checkState state timeout)
  | readState => exact moves_request .readState
  | slaveState slave => exact moves_request (.slaveState slave)
  | upload slave entry complete size timeout => exact moves_request (.upload _ _ _ _ _)
  | download slave entry complete data timeout => exact moves_request (.download _ _ _ _ _)
  | objectList slave => exact moves_request (.objectList slave)
  | objectDescription slave item => exact moves_request (.objectDescription slave item)
  | entryList slave item => exact moves_request (.entryList slave item)
  | expectedWkc => exact moves_request .expectedWkc
  | outputRange slave => exact moves_request (.outputRange slave)
  | inputRange slave => exact moves_request (.inputRange slave)
  | exchange timeout => exact moves_request (.exchange timeout)

/-- The ranges and the image of an engine. -/
def mapping (engine : StackEngine Segment) : List ImageRange × List ImageRange × Bytes :=
  (engine.outputs, engine.inputs, engine.image)

theorem keepsMapping_call {α : Type} (action : Action Segment α) :
    Moves (Keep mapping) (call action) :=
  Moves.within fun _ _ => rfl

theorem keepsOutputs_of_mapping {before after : StackEngine Segment}
    (kept : Keep mapping before after) : KeepsOutputs before after := by
  simp only [Keep, mapping, Prod.mk.injEq] at kept
  obtain ⟨outputsEq, inputsEq, imageEq⟩ := kept
  exact KeepsOutputs.of_eq outputsEq inputsEq imageEq

theorem keepsOutputs_exchange {engine after : StackEngine Segment} {timeout : Number} {wkc : Int}
    (laid : LaidOut engine) (succeeded : exchange timeout engine = .ok wkc after) :
    KeepsOutputs engine after := by
  obtain ⟨_, opened, opening, rest⟩ := bind_eq_ok_iff.mp succeeded
  have openKept : Keep id engine opened := moves_needOpen.of_ok opening
  cases openKept
  obtain ⟨_, _, got, rest⟩ := bind_eq_ok_iff.mp rest
  cases got
  obtain ⟨_, handed, handing, rest⟩ := bind_eq_ok_iff.mp rest
  cases handing
  obtain ⟨_, checked, checking, rest⟩ := bind_eq_ok_iff.mp rest
  obtain ⟨_, sent, sending, rest⟩ := bind_eq_ok_iff.mp rest
  obtain ⟨micros, timed, timing, rest⟩ := bind_eq_ok_iff.mp rest
  obtain ⟨answer, answered, answering, rest⟩ := bind_eq_ok_iff.mp rest
  obtain ⟨_, taken, taking, rest⟩ := bind_eq_ok_iff.mp rest
  obtain ⟨_, ended, ending, rest⟩ := bind_eq_ok_iff.mp rest
  cases rest
  cases taking
  let handed := engine.outputs.take (Stack.slaves engine.stack).length
  let pushed : StackEngine Segment :=
    { engine with stack := pushOutputs engine.image 0 handed engine.stack }
  have pushKept : Keep plan engine pushed :=
    congrArg (engine.outputs, engine.inputs, engine.image.length, ·)
      (Segment.size_pushOutputs _ _ _ engine.stack)
  have checkKept : Keep id pushed checked := (moves_needSlaves _).of_ok checking
  have sendKept : Keep mapping checked sent := (keepsMapping_call _).of_ok sending
  have timeKept : Keep mapping sent timed := (Moves.ofAccident _).of_ok timing
  have answerKept : Keep mapping timed answered := (keepsMapping_call _).of_ok answering
  have sendPlan : Keep plan checked sent :=
    (keepsPlan_call (Moves.modify fun _ => rfl)).of_ok sending
  have timePlan : Keep plan sent timed := (Moves.ofAccident _).of_ok timing
  have answerPlan : Keep plan timed answered := (keepsPlan_receive micros).of_ok answering
  have endKept : Keep id answered.takeIn after := (moves_needSlaves _).of_ok ending
  cases checkKept
  cases endKept
  have beforeInputs : Keep mapping engine answered := answerKept.trans (timeKept.trans sendKept)
  have planKept : Keep plan engine answered :=
    answerPlan.trans (timePlan.trans (sendPlan.trans pushKept))
  exact (keepsOutputs_of_mapping beforeInputs).trans
    (keepsOutputs_takeIn (laidOut_of_keep planKept laid))

instance : Engine.LaysOut (StackEngine Segment) where
  laidOut_mapImage := laidOut_mapImage
  laidOut_request := laidOut_request
  laidOut_event told engine laid := by
    cases told with
    | taskStarted => exact laid
    | taskJoined => exact laid
    | wait seconds => exact laidOut_of_keep (by rfl) laid
  keepsOutputs_exchange := keepsOutputs_exchange
  keepsOutputs_expectedWkc succeeded := by
    obtain ⟨_, opened, opening, rest⟩ := bind_eq_ok_iff.mp succeeded
    have openKept : Keep id _ opened := moves_needOpen.of_ok opening
    cases openKept
    cases rest
    exact KeepsOutputs.of_eq rfl rfl rfl

end StackEngine

end Fieldbus
