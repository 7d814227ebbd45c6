import Fieldbus.Proofs.Engine.Arena
import Fieldbus.Proofs.Engine.Delivery
import Fieldbus.Stack.Recorded

/-!
# Exchanges of process data

An engine over a frame stack that has laid out its image hands every slave with outputs the bytes
of its range, sends the frame, receives it, and takes in the inputs that came back.  Whatever was
done with the engine since its image was laid out, the inputs of a slave come to lie in its own
range, cut to it or followed by the bytes that were there, and the outputs stay as they are.
-/

namespace Fieldbus

open Fieldbus.Action

/-- Exchanging process data leaves a stack with as many slaves as it had. -/
class Stack.Steady (σ : Type) [Stack σ] : Prop where
  setOutput : ∀ (stack : σ) place data,
    (Stack.slaves (Stack.setOutput stack place data)).length = (Stack.slaves stack).length
  send : ∀ stack : σ, (Stack.slaves (Stack.send stack)).length = (Stack.slaves stack).length
  receive : ∀ {stack after : σ} {micros wkc : Int}, Stack.receive micros stack = .ok wkc after →
    (Stack.slaves after).length = (Stack.slaves stack).length

namespace StackEngine

variable {σ : Type} {engine : StackEngine σ}

theorem needSlaves_of_le [Stack σ] {ranges : List ImageRange}
    (few : ranges.length ≤ (Stack.slaves engine.stack).length) :
    needSlaves ranges engine = .ok () engine := by
  rw [needSlaves, bind_of_ok (get_apply engine), List.drop_eq_nil_of_le few]
  rfl

variable [Stack σ]

/-- An engine that has laid out its image, whatever was done with it since: requests that do not
bind it again or give up its image, changes of the bytes of the image, and changes of the stack. -/
inductive Mapped : StackEngine σ → Prop
  | mapped {engine after : StackEngine σ} {size : Int}
      (succeeded : mapImage engine = .ok size after) : Mapped after
  | unmapped {engine after : StackEngine σ} {fault : Fault} (mapped : Mapped engine)
      (failed : mapImage engine = .error fault after) : Mapped after
  | request {engine : StackEngine σ} {α : Type} {request : Action (StackEngine σ) α}
      (mapped : Mapped engine) (routine : IsRoutine request) : Mapped (final (request engine))
  | image {engine : StackEngine σ} {image : Bytes} (mapped : Mapped engine)
      (lengthEq : image.length = engine.image.length) : Mapped { engine with image }
  | stack {engine : StackEngine σ} (mapped : Mapped engine) (stack : σ) :
      Mapped { engine with stack }

section Mapping

theorem isOpen_of_mapImage {after : StackEngine σ} {size : Int}
    (mapped : mapImage engine = .ok size after) : after.isOpen = true := by
  cases isOpen : engine.isOpen with
  | false =>
      have refused : mapImage engine = .error (.accident .notOpen) engine :=
        bind_of_error (needOpen_of_not_isOpen isOpen)
      cases refused.symm.trans mapped
  | true =>
      cases mapCourse engine with
      | refused outcome => cases outcome.symm.trans mapped
      | failed mapping outcome => cases outcome.symm.trans mapped
      | mapped mapping outcome =>
          cases outcome.symm.trans mapped
          exact isOpen

instance : AllowsRoutine (Keep (isOpen (σ := σ))) where
  calls _ := Moves.within fun _ _ => rfl
  objects _ _ := rfl
  takesIn _ := rfl

theorem isOpen_of_mapImage_error {after : StackEngine σ} {fault : Fault}
    (failed : mapImage engine = .error fault after) : after.isOpen = engine.isOpen := by
  cases mapCourse engine with
  | refused outcome =>
      cases outcome.symm.trans failed
      rfl
  | failed mapping outcome =>
      cases outcome.symm.trans failed
      rfl
  | mapped mapping outcome => cases outcome.symm.trans failed

/-- There is an open master, and the ranges lie one after the other from the start of the image to
its end: only laying out the image anew changes them. -/
theorem Mapped.isOpen_and_wellFormed (mapped : Mapped engine) :
    engine.isOpen = true ∧ engine.arena.WellFormed := by
  induction mapped with
  | mapped succeeded =>
      exact ⟨isOpen_of_mapImage succeeded, (has_arena_of_mapImage succeeded).wellFormed⟩
  | @unmapped engine after fault _ failed ih =>
      obtain ⟨isOpen, wellFormed⟩ := ih
      have has : Has engine.arena engine := ⟨wellFormed, rfl⟩
      refine ⟨(isOpen_of_mapImage_error failed).trans isOpen, ?_⟩
      rw [(has.of_mapImage_error failed).arenaEq]
      exact wellFormed
  | @request engine _ request _ routine ih =>
      obtain ⟨isOpen, wellFormed⟩ := ih
      have kept : Keep StackEngine.isOpen engine (final (request engine)) :=
        moves_routine routine engine
      have preserved : Preserve (Has engine.arena) engine (final (request engine)) :=
        moves_routine routine engine
      refine ⟨kept.trans isOpen, ?_⟩
      rw [(preserved ⟨wellFormed, rfl⟩).arenaEq]
      exact wellFormed
  | @image engine image _ lengthEq ih =>
      obtain ⟨isOpen, wellFormed⟩ := ih
      have has : Has engine.arena engine := ⟨wellFormed, rfl⟩
      refine ⟨isOpen, ?_⟩
      rw [(has.withImage lengthEq).arenaEq]
      exact wellFormed
  | stack _ _ ih => exact ih

end Mapping

/-- The outputs that an exchange hands over: the place of each slave that has outputs, with the
bytes of its range. -/
def handovers (engine : StackEngine σ) : List (Nat × Bytes) :=
  (engine.outputs.zipIdx.filter (·.1.length ≠ 0)).map fun output =>
    (output.2, output.1.read engine.image)

/-- A stack whose slaves are handed outputs one after the other. -/
def handOver (stack : σ) (outputs : List (Nat × Bytes)) : σ :=
  outputs.foldl (fun stack output => Stack.setOutput stack output.1 output.2) stack

theorem pushOutputs_eq (image : Bytes) (place : Nat) (ranges : List ImageRange) (stack : σ) :
    pushOutputs image place ranges stack =
      handOver stack (((ranges.zipIdx place).filter (·.1.length ≠ 0)).map fun output =>
        (output.2, output.1.read image)) := by
  induction ranges generalizing place stack with
  | nil => rfl
  | cons range rest ih =>
      rw [pushOutputs, ih]
      by_cases empty : range.length = 0
      · simp [List.zipIdx_cons, empty]
      · simp [List.zipIdx_cons, empty, handOver]

theorem length_slaves_handOver [Stack.Steady σ] (stack : σ) (outputs : List (Nat × Bytes)) :
    (Stack.slaves (handOver stack outputs)).length = (Stack.slaves stack).length := by
  induction outputs generalizing stack with
  | nil => rfl
  | cons output rest ih => exact (ih _).trans (Stack.Steady.setOutput _ _ _)

def outputSize (engine : StackEngine σ) : Nat :=
  ImageRange.total (engine.outputs.map ImageRange.length)

/-- An exchange is made of handing over the outputs, sending, receiving and taking in the inputs. -/
theorem exchange_of_received [Stack.Steady σ] {timeout : Number} {duration wkc : Int} {stack : σ}
    (isOpen : engine.isOpen = true) (paired : engine.inputs.length = engine.outputs.length)
    (same : (Stack.slaves engine.stack).length = engine.outputs.length)
    (timed : micros timeout = .ok duration)
    (received : Stack.receive duration (Stack.send (handOver engine.stack engine.handovers)) =
      .ok wkc stack) :
    exchange timeout engine = .ok wkc { engine with stack }.takeIn := by
  let handed : StackEngine σ := { engine with stack := handOver engine.stack engine.handovers }
  let sent : StackEngine σ := { handed with stack := Stack.send handed.stack }
  have handing : changeStack
      (pushOutputs engine.image 0 (engine.outputs.take (Stack.slaves engine.stack).length)) engine =
        .ok () handed := by
    rw [same, List.take_length]
    have pushed : pushOutputs engine.image 0 engine.outputs engine.stack = handed.stack :=
      pushOutputs_eq _ _ _ _
    exact congrArg (fun stack => EStateM.Result.ok () { engine with stack }) pushed
  have handedCount : (Stack.slaves handed.stack).length = engine.outputs.length :=
    (length_slaves_handOver _ _).trans same
  have sending : changeStack Stack.send handed = .ok () sent := rfl
  have timing : ofAccident (micros timeout) sent = .ok duration sent := by
    rw [timed]
    rfl
  have receiving : call (Stack.receive duration) sent = .ok wkc { engine with stack } :=
    within_eq_ok_iff.mpr ⟨stack, received, rfl⟩
  have lastCount : (Stack.slaves stack).length = engine.inputs.length := by
    rw [Stack.Steady.receive received, Stack.Steady.send, handedCount, paired]
  rw [exchange, bind_of_ok (needOpen_of_isOpen isOpen), bind_of_ok (get_apply engine),
    bind_of_ok handing, bind_of_ok (needSlaves_of_le (Nat.le_of_eq handedCount.symm)),
    bind_of_ok sending, bind_of_ok timing, bind_of_ok receiving, bind_of_ok (modify_apply _ _)]
  exact bind_of_ok (needSlaves_of_le (Nat.le_of_eq lastCount.symm))

/-- What an exchange makes of the image of an engine, with the inputs that the stack has in the
end. -/
structure Exchanged (engine : StackEngine σ) (stack : σ) (image : Bytes) : Prop where
  lengthEq : image.length = engine.image.length
  outputsKept : image.take engine.outputSize = engine.image.take engine.outputSize
  inputsTaken : ∀ {place : Nat} {range : ImageRange} {slave : StackSlave},
    engine.inputs[place]? = some range → (Stack.slaves stack)[place]? = some slave →
      range.read image = slave.input.take (min range.length slave.input.length) ++
        (range.read engine.image).drop (min range.length slave.input.length)
  countEq : engine.inputs.length = (Stack.slaves stack).length
  outputsWithin : ∀ range ∈ engine.outputs, range.stop ≤ engine.outputSize
  apart : (engine.outputs ++ engine.inputs).Pairwise ImageRange.Apart

theorem exchanged_takeIn {stack : σ} (wellFormed : engine.arena.WellFormed)
    (countEq : (Stack.slaves stack).length = engine.outputs.length) :
    Exchanged engine stack (takeIn { engine with stack }).image := by
  have apart : (engine.outputs ++ engine.inputs).Pairwise ImageRange.Apart :=
    wellFormed.consecutive.pairwise_apart
  obtain ⟨outputsConsecutive, inputsConsecutive⟩ :
      ImageRange.Consecutive 0 engine.outputs engine.outputSize ∧
        ImageRange.Consecutive engine.outputSize engine.inputs engine.image.length := by
    have parted := wellFormed.consecutive.split
    rwa [Nat.zero_add] at parted
  have inside : ∀ range ∈ engine.inputs, range.stop ≤ engine.image.length := by
    intro range member
    exact wellFormed.stop_le_of_input member
  obtain ⟨lengthEq, kept⟩ :=
    ImageRange.copyIn_spec ((Stack.slaves stack).map StackSlave.input) inside
  refine ⟨lengthEq, ?_, ?_, wellFormed.paired.trans countEq.symm, ?_, apart⟩
  · apply List.ext_getElem?
    intro index
    rw [List.getElem?_take, List.getElem?_take]
    by_cases output : index < engine.outputSize
    · rw [if_pos output, if_pos output]
      apply kept
      intro range member
      have starts := (inputsConsecutive.within.2 range member).1
      omega
    · rw [if_neg output, if_neg output]
  · intro place range slave found shown
    have given : ((Stack.slaves stack).map StackSlave.input)[place]? = some slave.input := by
      rw [List.getElem?_map, shown, Option.map_some]
    rw [← List.take_eq_take_min]
    exact ImageRange.read_copyIn (List.pairwise_append.mp apart).2.1 inside given found
  · intro range member
    exact (outputsConsecutive.within.2 range member).2

section Recorded

variable {recorded after : Recorded σ StackCall}

theorem calls_handOver (recorded : Recorded σ StackCall) (outputs : List (Nat × Bytes)) :
    (handOver recorded outputs).calls.toList =
      recorded.calls.toList ++ outputs.map fun output => .setOutput output.1 output.2 := by
  induction outputs generalizing recorded with
  | nil => simp [handOver]
  | cons output rest ih =>
      refine (ih _).trans ?_
      simp [Stack.setOutput, Recorded.note]

theorem receive_eq_ok {duration wkc : Int}
    (received : Stack.receive duration recorded = .ok wkc after) :
    Stack.receive duration recorded.inner = .ok wkc after.inner ∧
      after.calls = recorded.calls.push (.receive duration) := by
  obtain ⟨inner, answered, rfl⟩ := within_eq_ok_iff.mp received
  exact ⟨answered, rfl⟩

instance [Stack.Steady σ] : Stack.Steady (Recorded σ StackCall) where
  setOutput recorded := Stack.Steady.setOutput recorded.inner
  send recorded := Stack.Steady.send recorded.inner
  receive received := Stack.Steady.receive (σ := σ) (receive_eq_ok received).1

end Recorded

/-- Whatever was done with an engine since it laid out its image, an exchange with the same number
of slaves returns what receiving the frame returns.  It hands every slave with outputs the bytes
that its range held and calls nothing else but sending and receiving.  All outputs stay as they
are, and the range of every slave's inputs starts with what the slave sent, cut to the range, and
goes on as before. -/
theorem exchange_delivers [Stack.Steady σ] {engine : StackEngine (Recorded σ StackCall)}
    (mapped : engine.Mapped) (same : (Stack.slaves engine.stack).length = engine.outputs.length)
    {timeout : Number} {duration wkc : Int} {stack : Recorded σ StackCall}
    (timed : micros timeout = .ok duration)
    (received : Stack.receive duration (Stack.send (handOver engine.stack engine.handovers)) =
      .ok wkc stack) :
    ∃ image, exchange timeout engine = .ok wkc { engine with stack, image } ∧
      stack.calls.toList = engine.stack.calls.toList ++
        (engine.handovers.map (fun output => .setOutput output.1 output.2) ++
          [.send, .receive duration]) ∧
      Exchanged engine stack image := by
  obtain ⟨isOpen, wellFormed⟩ := mapped.isOpen_and_wellFormed
  refine ⟨_, exchange_of_received isOpen wellFormed.paired same timed received, ?_, ?_⟩
  · rw [(receive_eq_ok received).2]
    simp [Stack.send, Recorded.note, calls_handOver]
  · apply exchanged_takeIn wellFormed
    rw [Stack.Steady.receive received, Stack.Steady.send, length_slaves_handOver, same]

instance : Stack.Steady Segment where
  setOutput segment place data := by simp [Stack.slaves, Stack.setOutput, Segment.setSlave]
  send _ := rfl
  receive {segment after micros wkc} received := by
    have kept : Keep Segment.slaves segment after := (keeps_receive micros).of_ok received
    simp only [Stack.slaves, List.length_map]
    rw [kept]

/-- Three slaves with outputs of two, no and one byte and inputs of one, two and no byte. -/
def unevenSegment (inputs : List (Option Bytes)) : Segment :=
  { Segment.bare with
    slaves := inputs.zipWith (fun given lengths =>
      { SimulatedSlave.plain with
        inputs := given, outputBytes := lengths.1, inputBytes := lengths.2 })
      [(2, 1), (0, 2), (1, 0)] }

def unevenEngine : StackEngine (Recorded Segment StackCall) :=
  { ofStack ⟨unevenSegment [none, none, none], #[]⟩ with isOpen := true }

/-- The engine with an image of six bytes, whose first slave sends more inputs than it has room
for and whose second slave sends fewer. -/
def unevenMapped : StackEngine (Recorded Segment StackCall) :=
  { final (mapImage unevenEngine) with
    image := [0xaa, 0x55, 7, 1, 2, 3]
    stack := ⟨unevenSegment [some [0x0f, 0x1f], some [0x2f], none], #[]⟩ }

/-- The outputs of the first and the last slave are handed over, the input of the first slave is
cut, and that of the second is followed by the byte that was there. -/
theorem exchange_delivers_unevenMapped :
    ∃ stack image, exchange (.int 1) unevenMapped = .ok 3 { unevenMapped with stack, image } ∧
      stack.calls.toList = [.setOutput 0 [0xaa, 0x55], .setOutput 2 [7], .send, .receive 1000000] ∧
      image.take 3 = [0xaa, 0x55, 7] ∧ (⟨3, 1⟩ : ImageRange).read image = [0x0f] ∧
      (⟨4, 2⟩ : ImageRange).read image = [0x2f, 3] := by
  have laid : mapImage unevenEngine = .ok 6 (final (mapImage unevenEngine)) := rfl
  have mapped : unevenMapped.Mapped := by
    have written :
        Mapped { final (mapImage unevenEngine) with image := [0xaa, 0x55, 7, 1, 2, 3] } :=
      .image (.mapped laid) rfl
    exact written.stack _
  have timed : micros (.int 1) = .ok 1000000 := rfl
  have answered : result? (Stack.receive 1000000
      (Stack.send (handOver unevenMapped.stack unevenMapped.handovers))) = some 3 := by
    decide +kernel
  obtain ⟨stack, received⟩ := exists_ok_of_result? answered
  obtain ⟨image, exchanged, calls, made⟩ := exchange_delivers mapped rfl timed received
  have kept : stack.inner.slaves =
      (Stack.send (handOver unevenMapped.stack unevenMapped.handovers)).inner.slaves :=
    (keeps_receive 1000000).of_ok (receive_eq_ok received).1
  have shown (place : Nat) : (Stack.slaves stack)[place]? =
      (Stack.slaves unevenMapped.stack)[place]? := by
    show (stack.inner.slaves.map Segment.shownSlave)[place]? = _
    rw [kept]
    rfl
  refine ⟨stack, image, exchanged, calls, made.outputsKept, ?_, ?_⟩
  · exact made.inputsTaken rfl ((shown 0).trans rfl)
  · exact made.inputsTaken rfl ((shown 1).trans rfl)

end StackEngine

end Fieldbus
