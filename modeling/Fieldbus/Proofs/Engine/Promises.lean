import Fieldbus.Engine.Recorded
import Fieldbus.Proofs.Outcome
import Fieldbus.Segment.MemoryEngine
import Fieldbus.Stack.StackEngine

/-!
# Promises of engines

What a master relies on when it stops its slaves and unbinds an engine.  Each engine of the
project keeps these promises, and an engine whose calls are recorded keeps those of the engine
inside.
-/

namespace Fieldbus

/-- The engine knows the outputs of a slave without asking the bus, and fails for slaves
only that it does not know. -/
class Engine.KnowsRanges (ε : Type) [Engine ε] : Prop where
  outputRange : ∀ (slave : Int) (engine : ε),
    (∃ range, Engine.outputRange slave engine = .ok range engine) ∨
      Engine.outputRange slave engine = .error (.slaveNotFound slave) engine

/-- The engine can always be unbound. -/
class Engine.Releases (ε : Type) [Engine ε] : Prop where
  disconnect : ∀ engine : ε, ∃ after, Engine.disconnect engine = .ok () after

theorem ImageRange.ofExcept_ofSlave {σ : Type} (ranges : List ImageRange) (slave : Int)
    (engine : σ) :
    (∃ range, Action.ofExcept (ofSlave ranges slave) engine = .ok range engine) ∨
      Action.ofExcept (ofSlave ranges slave) engine = .error (.slaveNotFound slave) engine := by
  rw [ofSlave]
  split
  · exact Or.inl ⟨_, rfl⟩
  · exact Or.inr rfl

instance : Engine.KnowsRanges MemoryEngine where
  outputRange slave engine := ImageRange.ofExcept_ofSlave engine.outputs slave engine

instance : Engine.Releases MemoryEngine where
  disconnect engine := ⟨engine, rfl⟩

section StackEngine

variable {σ : Type} [Stack σ]

instance : Engine.KnowsRanges (StackEngine σ) where
  outputRange slave engine := ImageRange.ofExcept_ofSlave engine.outputs slave engine

instance : Engine.Releases (StackEngine σ) where
  disconnect engine := by
    show ∃ after, StackEngine.disconnect engine = .ok () after
    rw [StackEngine.disconnect, Action.bind_of_ok (Action.get_apply engine)]
    cases engine.isOpen with
    | true => exact ⟨_, rfl⟩
    | false => exact ⟨_, rfl⟩

end StackEngine

section Recorded

variable {ε : Type} [Engine ε]

instance [Engine.KnowsRanges ε] : Engine.KnowsRanges (Recorded ε EngineCall) where
  outputRange slave recorded := by
    rcases Engine.KnowsRanges.outputRange slave recorded.inner with ⟨range, asked⟩ | missing
    · have known : Engine.outputRange slave recorded = .ok range recorded :=
        Action.within_eq_ok_iff.mpr ⟨recorded.inner, asked, rfl⟩
      exact Or.inl ⟨range, known⟩
    · have unknown : Engine.outputRange slave recorded = .error (.slaveNotFound slave) recorded :=
        Action.within_eq_error_iff.mpr ⟨recorded.inner, missing, rfl⟩
      exact Or.inr unknown

instance [Engine.Releases ε] : Engine.Releases (Recorded ε EngineCall) where
  disconnect recorded := by
    obtain ⟨after, released⟩ := Engine.Releases.disconnect recorded.inner
    have noted : Engine.disconnect recorded =
        .ok () { recorded.note .disconnect with inner := after } :=
      Action.within_eq_ok_iff.mpr ⟨after, released, rfl⟩
    exact ⟨_, noted⟩

end Recorded

end Fieldbus
