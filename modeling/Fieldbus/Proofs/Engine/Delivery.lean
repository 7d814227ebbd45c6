import Fieldbus.Proofs.Bits
import Fieldbus.Proofs.Engine.StackFootprint
import Fieldbus.Proofs.Outcome
import Fieldbus.Proofs.Segment.Passing
import Fieldbus.Segment.Stack

/-!
# Delivery of outputs

Which outputs a slave got last, and from which range of the image an exchange takes them.  A
range that was cleared stays clear when others are, wherever they lie.
-/

namespace Fieldbus

def Bytes.Clear (bytes : Bytes) : Prop :=
  ∀ byte ∈ bytes, byte = 0

instance (bytes : Bytes) : Decidable bytes.Clear :=
  inferInstanceAs (Decidable (∀ byte ∈ bytes, byte = 0))

namespace ImageRange

variable {range : ImageRange} {image : Bytes}

theorem ofSlave_of_getElem? {ranges : List ImageRange} {position : Nat}
    (found : ranges[position]? = some range) : ofSlave ranges position = .ok range := by
  rw [ofSlave, if_neg (by omega), Int.toNat_natCast, found]

theorem clear_read_iff : (range.read image).Clear ↔
    ∀ index byte, range.offset ≤ index → index < range.stop → image[index]? = some byte →
      byte = 0 := by
  constructor
  · intro clear index byte after before found
    apply clear
    apply List.mem_of_getElem? (i := index - range.offset)
    rw [read, Bytes.getElem?_slice_ofNat, if_pos (by omega)]
    rwa [Nat.add_sub_cancel' after]
  · intro zeros byte member
    obtain ⟨index, found⟩ := List.mem_iff_getElem?.mp member
    rw [read, Bytes.getElem?_slice_ofNat] at found
    by_cases inside : range.offset + index < range.stop
    · rw [if_pos inside] at found
      exact zeros (range.offset + index) byte (by omega) inside found
    · rw [if_neg inside] at found
      cases found

/-- Clearing a range leaves zeros in it and every other byte where it is.  A range beyond the
end of the image is no exception. -/
theorem getElem?_write_zeros {index : Nat} {byte : UInt8}
    (found : (range.write image (Bytes.zeros range.length))[index]? = some byte) :
    byte = 0 ∨ image[index]? = some byte ∧ ¬ (range.offset ≤ index ∧ index < range.stop) := by
  have stopEq : range.stop = range.offset + range.length := rfl
  rw [write, Bytes.splice, Bytes.place_ofNat, Bytes.place_ofNat, List.append_assoc] at found
  have firstLength : (image.take (min range.offset image.length)).length =
      min range.offset image.length := by simp
  by_cases before : index < min range.offset image.length
  · rw [List.getElem?_append_left (by omega), List.getElem?_take, if_pos before] at found
    exact Or.inr ⟨found, by omega⟩
  rw [List.getElem?_append_right (by omega), firstLength] at found
  by_cases within : index < min range.offset image.length + range.length
  · have zero := List.eq_of_mem_replicate (List.mem_of_getElem?
      ((List.getElem?_append_left (by simp; omega)).symm.trans found))
    exact Or.inl zero
  · rw [List.getElem?_append_right (by simp; omega), List.getElem?_drop, Bytes.length_zeros] at found
    have inside := (List.getElem?_eq_some_iff.mp found).1
    have same : max (min range.offset image.length) (min range.stop image.length) +
        (index - min range.offset image.length - range.length) = index := by omega
    rw [same] at found
    exact Or.inr ⟨found, by omega⟩

theorem clear_read_write_zeros (range : ImageRange) (image : Bytes) :
    (range.read (range.write image (Bytes.zeros range.length))).Clear := by
  rw [clear_read_iff]
  intro index byte after before found
  rcases getElem?_write_zeros found with zero | ⟨_, outside⟩
  · exact zero
  · exact absurd ⟨after, before⟩ outside

theorem clear_read_of_write_zeros {other : ImageRange} (clear : (other.read image).Clear)
    (range : ImageRange) : (other.read (range.write image (Bytes.zeros range.length))).Clear := by
  rw [clear_read_iff] at clear ⊢
  intro index byte after before found
  rcases getElem?_write_zeros found with zero | ⟨kept, _⟩
  · exact zero
  · exact clear index byte after before kept

end ImageRange

/-- What an engine delivers to its slaves.  An exchange hands a slave the outputs in its
range of the image; nothing else that happens when a master closes hands it any. -/
class Engine.Delivers (ε : Type) [Engine ε] where
  /-- The outputs that the slave at a position got last. -/
  received : ε → Nat → Bytes
  /-- The range of the image that an exchange sends to the slave at a position. -/
  served : ε → Nat → Option ImageRange
  outputRange_of_served : ∀ {engine position range}, served engine position = some range →
    Engine.outputRange position engine = .ok range engine
  image_setImage : ∀ (engine : ε) image, Engine.image (Engine.setImage engine image) = image
  served_setImage : ∀ engine image, served (Engine.setImage engine image) = served engine
  received_setImage : ∀ engine image, received (Engine.setImage engine image) = received engine
  image_taskJoined : ∀ engine : ε, Engine.image (Engine.taskJoined engine) = Engine.image engine
  served_taskJoined : ∀ engine, served (Engine.taskJoined engine) = served engine
  received_taskJoined : ∀ engine, received (Engine.taskJoined engine) = received engine
  received_expectedWkc : ∀ engine,
    received (Action.final (Engine.expectedWkc engine)) = received engine
  received_disconnect : ∀ engine,
    received (Action.final (Engine.disconnect engine)) = received engine
  received_exchange : ∀ {timeout wkc engine after}, Engine.exchange timeout engine = .ok wkc after →
    ∀ position, received after position =
      ((served engine position).map (·.read (Engine.image engine))).getD (received engine position)

/-- The outputs that the slave at a position of a segment got last. -/
def Segment.received (segment : Segment) (position : Nat) : Bytes :=
  (segment.slaves[position]?.map SimulatedSlave.sent).getD []

namespace Segment

open Fieldbus.Action

theorem keeps_nextWkc :
    Moves (Keep Segment.slaves) (modifyGet nextWkc : Action Segment (Option Int)) := by
  intro segment
  show segment.nextWkc.2.slaves = segment.slaves
  rw [nextWkc]
  split
  · rfl
  · rfl

end Segment

namespace MemoryEngine

open Fieldbus.Action

theorem getElem?_sendOutputs (image : Bytes) (slaves : List SimulatedSlave)
    (ranges : List ImageRange) (position : Nat) :
    (sendOutputs image slaves ranges)[position]? = slaves[position]?.map fun slave =>
      match ranges[position]? with
      | some range => { slave with sent := range.read image }
      | none => slave := by
  induction slaves generalizing ranges position with
  | nil => cases ranges <;> rfl
  | cons slave slaves ih =>
      cases ranges with
      | nil => simp [sendOutputs]
      | cons range ranges =>
          cases position with
          | zero => rfl
          | succ position => exact ih ranges position

/-- The range that an exchange sends to the slave at a position. -/
def served (engine : MemoryEngine) (position : Nat) : Option ImageRange :=
  if position < engine.segment.slaves.length then engine.outputs[position]? else none

/-- What an exchange delivers is made of. -/
def load (engine : MemoryEngine) : List SimulatedSlave × List ImageRange × Bytes :=
  (engine.segment.slaves, engine.outputs, engine.image)

theorem keeps_inSegment {α : Type} {action : Action Segment α}
    (keeps : Moves (Keep Segment.slaves) action) : Moves (Keep load) (inSegment action) := by
  refine Moves.within_along keeps ?_
  intro engine segment slavesEq
  exact congrArg (·, engine.outputs, engine.image) slavesEq

theorem received_exchange {wkc : Int} {engine after : MemoryEngine}
    (exchanged : exchange engine = .ok wkc after) (position : Nat) :
    after.segment.received position =
      ((engine.served position).map (·.read engine.image)).getD
        (engine.segment.received position) := by
  obtain ⟨_, passed, passing, rest⟩ := bind_eq_ok_iff.mp exchanged
  obtain ⟨answer, answered, answering, rest⟩ := bind_eq_ok_iff.mp rest
  have passKept : Keep load engine passed := (keeps_inSegment Segment.moves_passExchange).of_ok passing
  have answerKept : Keep load passed answered :=
    (keeps_inSegment Segment.keeps_nextWkc).of_ok answering
  have kept : answered.load = engine.load := answerKept.trans passKept
  simp only [load, Prod.mk.injEq] at kept
  obtain ⟨slavesEq, outputsEq, imageEq⟩ := kept
  cases answer with
  | none => cases rest
  | some wkc =>
      cases rest
      simp only [Segment.received, getElem?_sendOutputs, slavesEq, outputsEq, imageEq, served]
      rcases Nat.lt_or_ge position engine.segment.slaves.length with inside | outside
      · rw [if_pos inside, List.getElem?_eq_getElem inside]
        cases engine.outputs[position]? with
        | none => rfl
        | some range => rfl
      · rw [if_neg (by omega), List.getElem?_eq_none outside]
        rfl

end MemoryEngine

instance : Engine.Delivers MemoryEngine where
  received engine := engine.segment.received
  served := MemoryEngine.served
  outputRange_of_served := by
    intro engine position range known
    have found : engine.outputs[position]? = some range := by
      rw [MemoryEngine.served] at known
      split at known
      · exact known
      · cases known
    show Action.ofExcept (ImageRange.ofSlave engine.outputs position) engine = .ok range engine
    rw [ImageRange.ofSlave_of_getElem? found]
    rfl
  image_setImage _ _ := rfl
  served_setImage _ _ := rfl
  received_setImage _ _ := rfl
  image_taskJoined _ := rfl
  served_taskJoined _ := rfl
  received_taskJoined _ := rfl
  received_expectedWkc _ := rfl
  received_disconnect _ := rfl
  received_exchange := MemoryEngine.received_exchange

namespace StackEngine

open Fieldbus.Action

theorem getElem?_setOutput (segment : Segment) (place position : Nat) (data : Bytes) :
    (Stack.setOutput segment place data).slaves[position]? =
      if place = position then segment.slaves[position]?.map ({ · with sent := data })
      else segment.slaves[position]? := by
  show (segment.slaves.set place { segment.stackSlave place with sent := data })[position]? = _
  rw [List.getElem?_set]
  by_cases same : place = position
  · subst same
    rw [if_pos rfl, if_pos rfl]
    rcases Nat.lt_or_ge place segment.slaves.length with inside | outside
    · simp [Segment.stackSlave, inside]
    · simp [outside]
  · rw [if_neg same, if_neg same]

/-- The range that a push from a place on hands to the slave at a position. -/
def pushed (place : Nat) (ranges : List ImageRange) (position : Nat) : Option ImageRange :=
  if place ≤ position then ranges[position - place]?.filter (·.length ≠ 0) else none

theorem pushed_cons (place position : Nat) (range : ImageRange) (rest : List ImageRange) :
    pushed place (range :: rest) position =
      if place = position then if range.length = 0 then none else some range
      else pushed (place + 1) rest position := by
  unfold pushed
  by_cases same : place = position
  · by_cases empty : range.length = 0
    · simp [same, empty]
    · simp [same, empty]
  by_cases before : place ≤ position
  · have next : position - place = position - (place + 1) + 1 := by omega
    rw [if_pos before, if_neg same, if_pos (by omega), next, List.getElem?_cons_succ]
  · rw [if_neg before, if_neg same, if_neg (by omega)]

theorem getElem?_pushOutputs (image : Bytes) (place : Nat) (ranges : List ImageRange)
    (segment : Segment) (position : Nat) :
    (pushOutputs image place ranges segment).slaves[position]? =
      segment.slaves[position]?.map fun slave =>
        match pushed place ranges position with
        | some range => { slave with sent := range.read image }
        | none => slave := by
  induction ranges generalizing place segment with
  | nil => simp [pushOutputs, pushed]
  | cons range rest ih =>
      rw [pushOutputs, ih, pushed_cons]
      by_cases same : place = position
      · have beyond : pushed (place + 1) rest position = none := if_neg (by omega)
        rw [if_pos same, beyond]
        by_cases empty : range.length = 0
        · simp [empty]
        · simp [empty, getElem?_setOutput, same, Function.comp_def]
      · rw [if_neg same]
        by_cases empty : range.length = 0
        · simp [empty]
        · simp [empty, getElem?_setOutput, same]

/-- The range that an exchange sends to the slave at a position.  A slave without outputs
gets none. -/
def served (engine : StackEngine Segment) (position : Nat) : Option ImageRange :=
  pushed 0 (engine.outputs.take engine.stack.slaves.length) position

def slaves (engine : StackEngine Segment) : List SimulatedSlave :=
  engine.stack.slaves

theorem keeps_call {α : Type} {action : Action Segment α}
    (keeps : Moves (Keep Segment.slaves) action) : Moves (Keep slaves) (call action) :=
  Moves.within_along keeps fun _ _ slavesEq => slavesEq

theorem keeps_receive (micros : Int) :
    Moves (Keep Segment.slaves) (Stack.receive (σ := Segment) micros) := by
  refine Moves.bind Segment.moves_passExchange ?_
  intro _
  refine Moves.bind Segment.keeps_nextWkc ?_
  intro answer
  exact Moves.pure _

/-- The part of an exchange that comes after the outputs were handed over. -/
def collect (timeout : Number) (engine : StackEngine Segment) : Action (StackEngine Segment) Int := do
  needSlaves engine.outputs
  changeStack Stack.send
  let micros ← Action.ofAccident (micros timeout)
  let wkc ← call (Stack.receive micros)
  modify fun engine =>
    let received := (Stack.slaves engine.stack).map StackSlave.input
    { engine with image := ImageRange.copyIn received engine.inputs engine.image }
  needSlaves engine.inputs
  return wkc

theorem keeps_collect (timeout : Number) (engine : StackEngine Segment) :
    Moves (Keep slaves) (collect timeout engine) := by
  refine Moves.bind (moves_needSlaves _) ?_
  intro _
  refine Moves.bind (keeps_call (Moves.modify fun _ => rfl)) ?_
  intro _
  refine Moves.bind (Moves.ofAccident _) ?_
  intro micros
  refine Moves.bind (keeps_call (keeps_receive _)) ?_
  intro wkc
  refine Moves.bind (Moves.modify fun _ => rfl) ?_
  intro _
  refine Moves.bind (moves_needSlaves _) ?_
  intro _
  exact Moves.pure _

theorem received_exchange {timeout : Number} {wkc : Int} {engine after : StackEngine Segment}
    (exchanged : exchange timeout engine = .ok wkc after) (position : Nat) :
    after.stack.received position =
      ((engine.served position).map (·.read engine.image)).getD
        (engine.stack.received position) := by
  obtain ⟨_, opened, opening, rest⟩ := bind_eq_ok_iff.mp exchanged
  have openKept : Keep id engine opened := moves_needOpen.of_ok opening
  cases openKept
  obtain ⟨_, _, got, rest⟩ := bind_eq_ok_iff.mp rest
  cases got
  obtain ⟨_, handed, handing, rest⟩ := bind_eq_ok_iff.mp rest
  cases handing
  have kept := (keeps_collect timeout engine).of_ok rest
  have counted : (Stack.slaves engine.stack).length = engine.stack.slaves.length := List.length_map _
  have slavesEq : after.stack.slaves =
      (pushOutputs engine.image 0 (engine.outputs.take engine.stack.slaves.length)
        engine.stack).slaves := by
    rw [← counted]
    exact kept
  rw [Segment.received, slavesEq, getElem?_pushOutputs, served, Segment.received]
  rcases Nat.lt_or_ge position engine.stack.slaves.length with inside | outside
  · rw [List.getElem?_eq_getElem inside]
    cases pushed 0 (engine.outputs.take engine.stack.slaves.length) position with
    | none => rfl
    | some range => rfl
  · have unserved : pushed 0 (engine.outputs.take engine.stack.slaves.length) position = none := by
      rw [pushed, if_pos (Nat.zero_le _), List.getElem?_take, if_neg (by omega)]
      rfl
    rw [List.getElem?_eq_none outside, unserved]
    rfl

theorem keeps_expectedWkc :
    Moves (Keep slaves) (expectedWkc (σ := Segment)) := by
  refine Moves.bind moves_needOpen ?_
  intro _
  refine Moves.bind Moves.get ?_
  intro engine
  exact Moves.pure _

theorem keeps_disconnect : Moves (Keep slaves) (disconnect (σ := Segment)) := by
  refine Moves.bind Moves.get ?_
  intro engine
  split
  · refine Moves.bind (keeps_call (Moves.modify fun _ => rfl)) ?_
    intro _
    exact Moves.modify fun _ => rfl
  · exact Moves.modify fun _ => rfl

theorem received_of_slaves {engine after : StackEngine Segment} (kept : Keep slaves engine after) :
    after.stack.received = engine.stack.received := by
  funext position
  exact congrArg (fun slaves => (slaves[position]?.map SimulatedSlave.sent).getD []) kept

end StackEngine

instance : Engine.Delivers (StackEngine Segment) where
  received engine := engine.stack.received
  served := StackEngine.served
  outputRange_of_served := by
    intro engine position range known
    have found : engine.outputs[position]? = some range := by
      simp only [StackEngine.served, StackEngine.pushed, Nat.zero_le, if_true, Nat.sub_zero,
        List.getElem?_take, Option.filter_eq_some_iff] at known
      split at known
      · exact known.1
      · cases known.1
    show Action.ofExcept (ImageRange.ofSlave engine.outputs position) engine = .ok range engine
    rw [ImageRange.ofSlave_of_getElem? found]
    rfl
  image_setImage _ _ := rfl
  served_setImage _ _ := rfl
  received_setImage _ _ := rfl
  image_taskJoined _ := rfl
  served_taskJoined _ := rfl
  received_taskJoined _ := rfl
  received_expectedWkc engine :=
    StackEngine.received_of_slaves (StackEngine.keeps_expectedWkc engine)
  received_disconnect engine :=
    StackEngine.received_of_slaves (StackEngine.keeps_disconnect engine)
  received_exchange := StackEngine.received_exchange

end Fieldbus
