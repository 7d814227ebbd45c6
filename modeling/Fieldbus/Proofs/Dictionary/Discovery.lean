import Fieldbus.Dictionary.Discovery
import Fieldbus.Proofs.Outcome

/-!
# Addresses of discovered entries

Discovery gives every slot of an object the address of its place.  This also holds for
the objects that a fault of discovery carries along.
-/

namespace Fieldbus

/-- Every slot of the object has the address of its place. -/
def ObjectInfo.Addressed (object : ObjectInfo) : Prop :=
  ∀ (place : Nat) (info : EntryInfo), object.entries[place]? = some info →
    info.entry = ⟨object.index, place⟩

def AllAddressed (objects : List ObjectInfo) : Prop :=
  ∀ object ∈ objects, object.Addressed

theorem allAddressed_nil : AllAddressed [] := by
  intro object member
  cases member

theorem AllAddressed.concat {objects : List ObjectInfo} {object : ObjectInfo}
    (known : AllAddressed objects) (addressed : object.Addressed) :
    AllAddressed (objects ++ [object]) := by
  intro other member
  rcases List.mem_append.mp member with before | last
  · exact known other before
  · rw [List.mem_singleton.mp last]
    exact addressed

namespace Discovery

variable {ε : Type} [Engine ε] {slave : Int} {session after : Session ε}

omit [Engine ε] in
theorem exists_warnAll (source : Source) (texts : List Text) (session : Session ε) :
    ∃ notices, warnAll source texts session = .ok () ⟨session.engine, notices⟩ := by
  induction texts generalizing session with
  | nil => exact ⟨session.notices, rfl⟩
  | cons text rest ih => exact ih _

theorem addressed_objectInfo (item : Nat) (description : ObjectDescription)
    (entries : List EntryDescription) : (objectInfo item description entries).Addressed := by
  intro place info found
  rw [objectInfo] at found
  simp only [List.getElem?_map, Option.map_eq_some_iff] at found
  obtain ⟨subindex, listed, rfl⟩ := found
  have same : subindex = place := by
    obtain ⟨inside, value⟩ := List.getElem?_eq_some_iff.mp listed
    rw [← value, List.getElem_range]
  rw [same]
  rfl

theorem addressed_of_readObject {item : Nat} {object : ObjectInfo}
    (read : readObject slave item session = .ok object after) : object.Addressed := by
  obtain ⟨description, _, _, entered⟩ := Action.bind_eq_ok_iff.mp read
  obtain ⟨entries, _, _, warned⟩ := Action.bind_eq_ok_iff.mp entered
  obtain ⟨_, _, _, returned⟩ := Action.bind_eq_ok_iff.mp warned
  cases returned
  exact addressed_objectInfo _ _ _

theorem completed_withCompleted (completed : List ObjectInfo) (fault : Fault) :
    (withCompleted completed fault).completed = completed ∨
      (withCompleted completed fault).completed = [] := by
  cases fault with
  | objectDescription => exact Or.inl rfl
  | entryList => exact Or.inl rfl
  | _ => exact Or.inr rfl

/-- Objects that are read one after the other are addressed, as far as it gets. -/
theorem addressed_of_readObjectsFrom {count item : Nat} {completed : List ObjectInfo}
    (known : AllAddressed completed) :
    (∀ objects, readObjectsFrom slave count item completed session = .ok objects after →
        AllAddressed objects) ∧
      ∀ fault, readObjectsFrom slave count item completed session = .error fault after →
        AllAddressed fault.completed := by
  induction count generalizing item completed session with
  | zero =>
      refine ⟨?_, ?_⟩
      · intro objects read
        cases read
        exact known
      · intro fault failed
        cases failed
  | succ count ih =>
      refine ⟨?_, ?_⟩
      · intro objects read
        obtain ⟨object, between, first, more⟩ := Action.bind_eq_ok_iff.mp read
        have addressed := addressed_of_readObject (Action.mapFault_eq_ok_iff.mp first)
        exact (ih (known.concat addressed)).1 objects more
      · intro fault failed
        rcases Action.bind_eq_error_iff.mp failed with refused | ⟨object, between, first, more⟩
        · obtain ⟨cause, _, rfl⟩ := Action.mapFault_eq_error_iff.mp refused
          rcases completed_withCompleted completed cause with kept | none
          · rw [kept]
            exact known
          · rw [none]
            exact allAddressed_nil
        · have addressed := addressed_of_readObject (Action.mapFault_eq_ok_iff.mp first)
          exact (ih (known.concat addressed)).2 fault more

theorem addressed_of_readObjects {objects : List ObjectInfo}
    (read : readObjects slave session = .ok objects after) : AllAddressed objects := by
  obtain ⟨indices, _, _, more⟩ := Action.bind_eq_ok_iff.mp read
  exact (addressed_of_readObjectsFrom allAddressed_nil).1 objects more

/-- What a fault of discovery carries along is addressed, if the fault is not one of the
object list. -/
theorem addressed_of_readObjects_error {fault : Fault}
    (plain : ∀ cause engine, Engine.objectList slave session.engine = .error cause engine →
      cause.completed = [])
    (failed : readObjects slave session = .error fault after) :
    AllAddressed fault.completed := by
  rcases Action.bind_eq_error_iff.mp failed with refused | ⟨indices, _, _, more⟩
  · cases asked : Engine.objectList slave session.engine with
    | ok indices engine =>
        rw [Session.ask_of_ok asked] at refused
        cases refused
    | error cause engine =>
        rw [Session.ask_of_error asked] at refused
        cases refused
        rw [plain _ _ asked]
        exact allAddressed_nil
  · exact (addressed_of_readObjectsFrom allAddressed_nil).2 fault more

end Discovery

end Fieldbus
