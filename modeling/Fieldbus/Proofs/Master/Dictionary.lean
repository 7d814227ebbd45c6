import Fieldbus.Proofs.Dictionary.Discovery
import Fieldbus.Proofs.Master.Reachable
import Fieldbus.Proofs.Segment.Uploads

/-!
# The dictionary of a reachable master

Only configuration passes change the dictionary of a master: they forget that of the last
pass and keep the objects that they read.  So every slot of a reachable master's
dictionary has the address of its place.
-/

namespace Fieldbus

namespace Master

open Fieldbus.Action

variable {ε : Type}

def TableAddressed (objects : Table Int (List ObjectInfo)) : Prop :=
  ∀ slave found, objects.get? slave = some found → AllAddressed found

def DictionaryAddressed (master : Master ε) : Prop :=
  TableAddressed master.dictionary.slaves

theorem tableAddressed_nil : TableAddressed [] := by
  intro slave found look
  cases look

theorem TableAddressed.put {objects : Table Int (List ObjectInfo)} {slave : Int}
    {found : List ObjectInfo} (known : TableAddressed objects)
    (addressed : AllAddressed found) : TableAddressed (objects.put slave found) := by
  intro other others look
  rw [Table.get?_put] at look
  by_cases same : slave = other
  · rw [if_pos same] at look
    cases look
    exact addressed
  · rw [if_neg same] at look
    exact known other others look

/-- An object of an addressed dictionary is addressed, and has the index it is found at. -/
theorem TableAddressed.object {dictionary : ObjectDictionary} {slave index : Int}
    {object : ObjectInfo} (known : TableAddressed dictionary.slaves)
    (found : dictionary.findObject? slave index = some object) :
    object.Addressed ∧ object.index = index := by
  obtain ⟨objects, listed, last⟩ := Option.bind_eq_some_iff.mp found
  have member := List.mem_of_find?_eq_some last
  have sameIndex := List.find?_some last
  exact ⟨known slave objects listed object (List.mem_reverse.mp member), by simpa using sameIndex⟩

instance : AllowsSession (Preserve (DictionaryAddressed (ε := ε))) where
  session _ _ := id

instance [Engine ε] : AllowsStates (Preserve (DictionaryAddressed (ε := ε))) where
  lastWkc _ _ := id
  okCount _ _ := id
  errorCount _ _ := id
  handles _ _ := id
  running _ _ := id
  connects _ := moves_ask _
  disconnects := moves_ask _
  opened _ _ := id
  inOp _ _ := id

variable [Engine ε]

/-- A list of objects that cannot be read carries no objects along. -/
def ListsPlainly (ε : Type) [Engine ε] : Prop :=
  ∀ (slave : Int) (engine after : ε) (cause : Fault),
    Engine.objectList slave engine = .error cause after → cause.completed = []

theorem listsPlainly_memoryEngine : ListsPlainly MemoryEngine := by
  intro slave engine after cause failed
  rcases bind_eq_error_iff.mp failed with missing | ⟨⟨place, found⟩, between, _, listed⟩
  · rw [MemoryEngine.fault_of_slaveAt missing]
    rfl
  · cases refused : found.listError with
    | none =>
        simp only [refused] at listed
        cases listed
    | some error =>
        simp only [refused] at listed
        cases listed
        rfl

theorem discoverFrom_addressed (plain : ListsPlainly ε) {count position : Nat}
    {findings found : Findings} {master after : Master ε}
    (known : TableAddressed findings.objects)
    (discovered : discoverFrom count position findings master = .ok found after) :
    TableAddressed found.objects := by
  induction count generalizing position findings master with
  | zero =>
      cases discovered
      exact known
  | succ count ih =>
      rw [discoverFrom] at discovered
      obtain ⟨next, between, caught, more⟩ := bind_eq_ok_iff.mp discovered
      refine ih ?_ more
      rcases catching_eq_ok_iff.mp caught with succeeded | ⟨fault, failed, refused, _, handled⟩
      · obtain ⟨objects, _, read, kept⟩ := bind_eq_ok_iff.mp succeeded
        obtain ⟨session, readObjects, _⟩ := within_eq_ok_iff.mp read
        cases kept
        exact known.put (Discovery.addressed_of_readObjects readObjects)
      · have addressed : AllAddressed fault.completed := by
          rcases bind_eq_error_iff.mp refused with read | ⟨_, _, _, impossible⟩
          · obtain ⟨session, readObjects, _⟩ := within_eq_error_iff.mp read
            exact Discovery.addressed_of_readObjects_error (fun _ _ => plain _ _ _ _) readObjects
          · cases impossible
        obtain ⟨_, _, _, kept⟩ := bind_eq_ok_iff.mp handled
        cases kept
        dsimp only
        split
        · exact known
        · exact known.put addressed

theorem layOut_keeps_addressed : Moves (Preserve DictionaryAddressed) (layOut (ε := ε)) := by
  refine moves_layOut ?_ (moves_ask _)
  intro master _
  exact tableAddressed_nil

theorem discoverAll_keeps_addressed (plain : ListsPlainly ε) (count : Nat) :
    Moves (Preserve DictionaryAddressed) (discoverAll (ε := ε) count) := by
  refine Moves.bind_of_ok (moves_discoverFrom _ _ _) ?_
  intro master findings between discovered
  have addressed := discoverFrom_addressed plain tableAddressed_nil discovered
  refine Moves.bind (moves_resolveAll _ _ _ _) ?_ between
  intro resolved
  apply Moves.modify
  intro _ _
  exact addressed

theorem Reachable.dictionaryAddressed (plain : ListsPlainly ε) {master : Master ε}
    (reachable : Reachable master) : DictionaryAddressed master := by
  apply reachable.invariant
  · intro config pdoConfig engine
    exact tableAddressed_nil
  · intro command
    exact moves_perform
      (moves_configure layOut_keeps_addressed (discoverAll_keeps_addressed plain)) command

end Master

end Fieldbus
