import Fieldbus.Proofs.Engine.Ranges
import Fieldbus.Proofs.Engine.StackFootprint

/-!
# The arena of an engine over a stack

The ranges of an engine over a frame stack and the size of its image.  The outputs of all slaves
and then their inputs lie one after the other and end with the image.  Laying out the image makes
such an arena of what the slaves have, and giving the image up leaves the empty one; every other
request keeps the arena, whatever the stack does.
-/

namespace Fieldbus

open Fieldbus.Action

namespace ImageRange

/-- Ranges that lie one after the other. -/
def Consecutive : (start : Nat) → List ImageRange → (stop : Nat) → Prop
  | start, [], stop => start = stop
  | start, range :: rest, stop => range.offset = start ∧ Consecutive range.stop rest stop

theorem consecutive_arrange (offset : Nat) (lengths : List Nat) :
    Consecutive offset (arrange offset lengths) (offset + total lengths) := by
  induction lengths generalizing offset with
  | nil => rfl
  | cons length rest ih =>
      refine ⟨rfl, ?_⟩
      rw [total_cons, ← Nat.add_assoc]
      exact ih (offset + length)

namespace Consecutive

variable {start stop : Nat} {ranges : List ImageRange}

theorem within (consecutive : Consecutive start ranges stop) :
    start ≤ stop ∧ ∀ range ∈ ranges, start ≤ range.offset ∧ range.stop ≤ stop := by
  induction ranges generalizing start with
  | nil =>
      have same : start = stop := consecutive
      exact ⟨Nat.le_of_eq same, fun _ member => absurd member List.not_mem_nil⟩
  | cons first rest ih =>
      obtain ⟨starts, later⟩ := consecutive
      obtain ⟨ordered, inside⟩ := ih later
      have begins : start ≤ first.stop := by
        rw [← starts]
        exact Nat.le_add_right _ _
      refine ⟨Nat.le_trans begins ordered, ?_⟩
      intro range member
      rcases List.mem_cons.mp member with rfl | more
      · exact ⟨Nat.le_of_eq starts.symm, ordered⟩
      · obtain ⟨low, high⟩ := inside range more
        exact ⟨Nat.le_trans begins low, high⟩

theorem pairwise_apart (consecutive : Consecutive start ranges stop) : ranges.Pairwise Apart := by
  induction ranges generalizing start with
  | nil => exact List.Pairwise.nil
  | cons first rest ih =>
      obtain ⟨_, later⟩ := consecutive
      refine List.Pairwise.cons ?_ (ih later)
      intro range member
      exact Or.inl (later.within.2 range member).1

/-- Consecutive ranges are parted where the first of them end. -/
theorem split {first second : List ImageRange}
    (consecutive : Consecutive start (first ++ second) stop) :
    Consecutive start first (start + total (first.map length)) ∧
      Consecutive (start + total (first.map length)) second stop := by
  induction first generalizing start with
  | nil => exact ⟨rfl, consecutive⟩
  | cons range rest ih =>
      obtain ⟨starts, later⟩ := consecutive
      rw [List.map_cons, total_cons, ← Nat.add_assoc, ← starts]
      obtain ⟨early, late⟩ := ih later
      exact ⟨⟨rfl, early⟩, late⟩

end Consecutive

end ImageRange

/-- The ranges of an engine in slave order, and the size of its image. -/
structure Arena where
  outputs : List ImageRange
  inputs : List ImageRange
  size : Nat
  deriving DecidableEq, Repr

namespace Arena

/-- The outputs and then the inputs lie one after the other from the start of the image to its
end, and each slave has both. -/
structure WellFormed (arena : Arena) : Prop where
  consecutive : ImageRange.Consecutive 0 (arena.outputs ++ arena.inputs) arena.size
  paired : arena.inputs.length = arena.outputs.length

def empty : Arena :=
  ⟨[], [], 0⟩

def ofSlaves (slaves : List StackSlave) : Arena :=
  let outputLengths := slaves.map (·.output.length)
  let inputLengths := slaves.map (·.input.length)
  { outputs := ImageRange.arrange 0 outputLengths
    inputs := ImageRange.arrange (ImageRange.total outputLengths) inputLengths
    size := ImageRange.total outputLengths + ImageRange.total inputLengths }

theorem wellFormed_empty : empty.WellFormed :=
  ⟨rfl, rfl⟩

theorem wellFormed_ofSlaves (slaves : List StackSlave) : (ofSlaves slaves).WellFormed := by
  let outputLengths := slaves.map (·.output.length)
  let inputLengths := slaves.map (·.input.length)
  refine ⟨?_, ?_⟩
  · have consecutive := ImageRange.consecutive_arrange 0 (outputLengths ++ inputLengths)
    rw [ImageRange.arrange_append, ImageRange.total_append, Nat.zero_add, Nat.zero_add]
      at consecutive
    exact consecutive
  · simp only [ofSlaves, ImageRange.length_arrange, List.length_map]

variable {arena : Arena} {range : ImageRange}

theorem WellFormed.stop_le_of_output (wellFormed : arena.WellFormed)
    (member : range ∈ arena.outputs) : range.stop ≤ arena.size :=
  (wellFormed.consecutive.within.2 range (List.mem_append_left _ member)).2

theorem WellFormed.stop_le_of_input (wellFormed : arena.WellFormed)
    (member : range ∈ arena.inputs) : range.stop ≤ arena.size :=
  (wellFormed.consecutive.within.2 range (List.mem_append_right _ member)).2

end Arena

namespace StackEngine

variable {σ α : Type}

def arena (engine : StackEngine σ) : Arena :=
  ⟨engine.outputs, engine.inputs, engine.image.length⟩

/-- An engine has a given arena, which is well-formed. -/
structure Has (arena : Arena) (engine : StackEngine σ) : Prop where
  wellFormed : arena.WellFormed
  arenaEq : engine.arena = arena

variable {arena : Arena} {engine after : StackEngine σ}

theorem Has.of_arena_eq (has : Has arena engine) (same : after.arena = engine.arena) :
    Has arena after :=
  ⟨has.wellFormed, same.trans has.arenaEq⟩

theorem Has.outputs_eq (has : Has arena engine) : engine.outputs = arena.outputs :=
  congrArg Arena.outputs has.arenaEq

theorem Has.inputs_eq (has : Has arena engine) : engine.inputs = arena.inputs :=
  congrArg Arena.inputs has.arenaEq

theorem Has.size_eq (has : Has arena engine) : engine.image.length = arena.size :=
  congrArg Arena.size has.arenaEq

theorem Has.withImage (has : Has arena engine) {image : Bytes}
    (lengthEq : image.length = engine.image.length) : Has arena { engine with image } :=
  has.of_arena_eq (congrArg (Arena.mk engine.outputs engine.inputs) lengthEq)

theorem has_call (action : Action σ α) : Moves (Preserve (Has arena)) (call action) :=
  Moves.within fun _ _ has => has.of_arena_eq rfl

variable [Stack σ]

/-- Inputs of any length are cut to their ranges. -/
theorem Has.takeIn (has : Has arena engine) : Has arena engine.takeIn := by
  apply has.withImage
  refine (ImageRange.copyIn_spec _ ?_).1
  intro range member
  rw [has.inputs_eq] at member
  rw [has.size_eq]
  exact has.wellFormed.stop_le_of_input member

instance : AllowsRoutine (Preserve (Has (σ := σ) arena)) where
  calls _ := has_call _
  objects _ _ has := has.of_arena_eq rfl
  takesIn _ has := has.takeIn

theorem has_connect (adapter : Payload) :
    Moves (Preserve (Has arena)) (connect (σ := σ) adapter) :=
  moves_connect (fun _ _ has => has.of_arena_eq rfl) (fun _ _ has => has.of_arena_eq rfl)
    (fun _ => has_call _) adapter

theorem arena_arranged (engine : StackEngine σ) :
    engine.arranged.arena = Arena.ofSlaves (Stack.slaves engine.stack) :=
  congrArg (Arena.mk _ _) (Bytes.length_zeros _)

/-- Laying out the image gives the slaves that the stack has then their ranges. -/
theorem arena_of_mapImage {size : Int} (mapped : mapImage engine = .ok size after) :
    after.arena = Arena.ofSlaves (Stack.slaves after.stack) := by
  cases mapCourse engine with
  | refused outcome =>
      rw [outcome] at mapped
      cases mapped
  | mapped mapping outcome =>
      rw [outcome] at mapped
      cases mapped
      exact arena_arranged _
  | failed mapping outcome =>
      rw [outcome] at mapped
      cases mapped

/-- Laying out the image that fails leaves the ranges and the image as they were. -/
theorem kept_of_mapImage_error {fault : Fault} (failed : mapImage engine = .error fault after) :
    after.outputs = engine.outputs ∧ after.inputs = engine.inputs ∧ after.image = engine.image := by
  cases mapCourse engine with
  | refused outcome =>
      rw [outcome] at failed
      cases failed
      exact ⟨rfl, rfl, rfl⟩
  | mapped mapping outcome =>
      rw [outcome] at failed
      cases failed
  | failed mapping outcome =>
      rw [outcome] at failed
      cases failed
      exact ⟨rfl, rfl, rfl⟩

theorem has_arena_of_mapImage {size : Int} (mapped : mapImage engine = .ok size after) :
    Has after.arena after := by
  refine ⟨?_, rfl⟩
  rw [arena_of_mapImage mapped]
  exact Arena.wellFormed_ofSlaves _

theorem Has.of_mapImage_error (has : Has arena engine) {fault : Fault}
    (failed : mapImage engine = .error fault after) : Has arena after := by
  obtain ⟨outputsEq, inputsEq, imageEq⟩ := kept_of_mapImage_error failed
  apply has.of_arena_eq
  rw [StackEngine.arena, StackEngine.arena, outputsEq, inputsEq, imageEq]

theorem Has.exists_mapImage (has : Has arena engine) :
    ∃ laid, Has laid (final (mapImage engine)) := by
  cases outcome : mapImage engine with
  | ok size after => exact ⟨after.arena, has_arena_of_mapImage outcome⟩
  | error fault after => exact ⟨arena, has.of_mapImage_error outcome⟩

end StackEngine

end Fieldbus
