import Fieldbus.Proofs.Pdo.Assigning
import Fieldbus.Proofs.Pdo.Resolve
import Fieldbus.Proofs.Value.RoundTrip

/-!
# Assignment and layout agree

Assigning objects to a slave and resolving its layout go by the same protocol objects.  For a slave
with a steady mailbox the layout has for each sync manager the objects that the table lists for
it, and an assignment that succeeds lists its objects for sync managers 2 and 3.
-/

namespace Fieldbus

open Fieldbus.Action

namespace Table

def pdoAt (table : MailboxTable) (sm subindex : Nat) : Int :=
  ((table.number? ⟨Layout.assignmentIndex sm, subindex⟩ 2).getD 0 : Nat)

/-- The objects that a table lists for a sync manager. -/
def pdosOf (table : MailboxTable) (sm : Nat) : List Int :=
  (List.range' 1 ((table.number? ⟨Layout.assignmentIndex sm, 0⟩ 1).getD 0)).map (table.pdoAt sm)

/-- The table does not say that an object maps no entries. -/
def maps (table : MailboxTable) (pdo : Int) : Bool :=
  table.number? ⟨pdo, 0⟩ 1 ≠ some 0

end Table

/-- A map has one assignment for a sync manager, of a type and with objects of given indices. -/
def PdoMap.Assigns (map : PdoMap) (sm : Int) (type : SyncManagerType) (indices : List Int) : Prop :=
  ∃ assignment, map.filter (·.sm = sm) = [assignment] ∧ assignment.smType = type ∧
    assignment.pdos.map Pdo.index = indices

theorem PdoMap.filter_sm_eq_singleton {map : PdoMap} {assignment : PdoAssignment} {sm : Int}
    (once : (map.map PdoAssignment.sm).Nodup) (member : assignment ∈ map)
    (smEq : assignment.sm = sm) : map.filter (·.sm = sm) = [assignment] := by
  have counted : (map.map PdoAssignment.sm).count sm = 1 :=
    List.count_eq_one_of_mem once (List.mem_map.mpr ⟨assignment, member, smEq⟩)
  rw [List.count, List.countP_map, List.countP_eq_length_filter] at counted
  obtain ⟨only, onlyEq⟩ := List.length_eq_one_iff.mp counted
  have inside : assignment ∈ map.filter ((· == sm) ∘ PdoAssignment.sm) :=
    List.mem_filter.mpr ⟨member, by simp [smEq]⟩
  rw [onlyEq, List.mem_singleton] at inside
  rw [inside, ← onlyEq]
  exact List.filter_congr fun other _ => by simp [beq_eq_decide]

namespace Layout

open MemoryEngine

section Objects

variable {source : Source} {type : SyncManagerType} {table : MailboxTable}
  {session after : Session MemoryEngine} {cursor stop : Cursor}

theorem length_of_readEntries {ε : Type} [Engine ε] {pdo : Int} {subindices : List Nat}
    {entries : List MappedEntry} {session after : Session ε}
    (ran : readEntries source type pdo subindices cursor session = .ok (entries, stop) after) :
    entries.length = subindices.length := by
  induction subindices generalizing session cursor entries with
  | nil =>
      obtain ⟨laidEq, _⟩ := pure_eq_ok_iff.mp ran
      rw [← (Prod.mk.inj laidEq).1]
      rfl
  | cons subindex rest ih =>
      obtain ⟨⟨mapped, middle⟩, between, _, moreRan⟩ := bind_eq_ok_iff.mp ran
      obtain ⟨⟨more, last⟩, finished, restRan, done⟩ := bind_eq_ok_iff.mp moreRan
      obtain ⟨laidEq, rfl⟩ := pure_eq_ok_iff.mp done
      obtain ⟨rfl, rfl⟩ := Prod.mk.inj laidEq
      rw [List.length_cons, ih restRan, List.length_cons]

/-- The object that is listed at a subindex is read, and left out exactly if it maps nothing. -/
theorem readPdo_of_steady {sm subindex : Nat} {pdo : Option Pdo} (steady : table.Steady)
    (stores : Stores source.slave table session.engine)
    (ran : readPdo source sm type subindex cursor session = .ok (pdo, stop) after) :
    pdo.toList.map Pdo.index = [table.pdoAt sm subindex].filter table.maps := by
  obtain ⟨index, indexed, indexRan, countRan⟩ := bind_eq_ok_iff.mp ran
  obtain ⟨listed, storesIndexed⟩ := readUnsigned_of_steady steady stores indexRan
  obtain ⟨count, counted, countRead, entriesRan⟩ := bind_eq_ok_iff.mp countRan
  obtain ⟨counts, _⟩ := readUnsigned_of_steady steady storesIndexed countRead
  obtain ⟨⟨entries, last⟩, read, entriesRead, nameRan⟩ := bind_eq_ok_iff.mp entriesRan
  have pdoEq : table.pdoAt sm subindex = index := by
    rw [Table.pdoAt, listed, Option.getD_some]
  have mapsIff : table.maps index = !entries.isEmpty := by
    have lengthEq := length_of_readEntries entriesRead
    rw [List.length_range'] at lengthEq
    rw [Table.maps, counts, ← lengthEq]
    cases entries <;> simp
  rw [pdoEq, List.filter_singleton, mapsIff]
  by_cases empty : entries.isEmpty
  · simp only [empty, if_true, pure_eq_ok_iff, Prod.mk.injEq] at nameRan
    obtain ⟨⟨rfl, _⟩, _⟩ := nameRan
    rw [empty]
    rfl
  · simp only [empty, Bool.false_eq_true, if_false, bind_eq_ok_iff, pure_eq_ok_iff,
      Prod.mk.injEq] at nameRan
    obtain ⟨name, named, _, ⟨rfl, _⟩, _⟩ := nameRan
    rw [Bool.not_eq_true] at empty
    rw [empty]
    rfl

theorem readPdos_of_steady {sm : Nat} {subindices : List Nat} {pdos : List Pdo}
    (steady : table.Steady) (stores : Stores source.slave table session.engine)
    (ran : readPdos source sm type subindices cursor session = .ok (pdos, stop) after) :
    pdos.map Pdo.index = (subindices.map (table.pdoAt sm)).filter table.maps := by
  induction subindices generalizing session cursor pdos with
  | nil =>
      obtain ⟨laidEq, _⟩ := pure_eq_ok_iff.mp ran
      rw [← (Prod.mk.inj laidEq).1]
      rfl
  | cons subindex rest ih =>
      obtain ⟨⟨pdo, middle⟩, between, pdoRan, moreRan⟩ := bind_eq_ok_iff.mp ran
      obtain ⟨⟨more, last⟩, finished, restRan, done⟩ := bind_eq_ok_iff.mp moreRan
      obtain ⟨laidEq, rfl⟩ := pure_eq_ok_iff.mp done
      obtain ⟨rfl, rfl⟩ := Prod.mk.inj laidEq
      have first := readPdo_of_steady steady stores pdoRan
      obtain ⟨⟨_, leads, _⟩, _⟩ := readPdo_ok pdoRan
      have later := ih (stores.of_leads steady leads) restRan
      rw [List.map_append, first, later, List.map_cons, ← List.filter_append,
        List.singleton_append]

theorem readAssignment_of_steady {sm : Nat} {assignment : PdoAssignment} (steady : table.Steady)
    (stores : Stores source.slave table session.engine)
    (ran : readAssignment source sm type cursor session = .ok (assignment, stop) after) :
    assignment.pdos.map Pdo.index = (table.pdosOf sm).filter table.maps := by
  obtain ⟨count, counted, countRan, pdosRan⟩ := bind_eq_ok_iff.mp ran
  obtain ⟨counts, storesCounted⟩ := readUnsigned_of_steady steady stores countRan
  obtain ⟨⟨pdos, last⟩, listed, listedRan, done⟩ := bind_eq_ok_iff.mp pdosRan
  obtain ⟨laidEq, rfl⟩ := pure_eq_ok_iff.mp done
  obtain ⟨rfl, rfl⟩ := Prod.mk.inj laidEq
  rw [readPdos_of_steady steady storesCounted listedRan, Table.pdosOf, counts, Option.getD_some]

/-- An assignment has the objects that a table lists for its sync manager, but those that map
nothing. -/
def Lists (table : MailboxTable) (assignment : PdoAssignment) : Prop :=
  ∃ number : Nat, assignment.sm = number ∧
    assignment.pdos.map Pdo.index = (table.pdosOf number).filter table.maps

theorem readAssignments_of_steady {sms : List Nat} {map : PdoMap} (steady : table.Steady)
    (stores : Stores source.slave table session.engine)
    (ran : readAssignments source type sms cursor session = .ok (map, stop) after) :
    ∀ assignment ∈ map, Lists table assignment := by
  induction sms generalizing session cursor map with
  | nil =>
      obtain ⟨laidEq, _⟩ := pure_eq_ok_iff.mp ran
      rw [← (Prod.mk.inj laidEq).1]
      exact fun _ member => absurd member List.not_mem_nil
  | cons sm rest ih =>
      obtain ⟨⟨first, middle⟩, between, firstRan, moreRan⟩ := bind_eq_ok_iff.mp ran
      obtain ⟨⟨more, last⟩, finished, restRan, done⟩ := bind_eq_ok_iff.mp moreRan
      obtain ⟨laidEq, rfl⟩ := pure_eq_ok_iff.mp done
      obtain ⟨rfl, rfl⟩ := Prod.mk.inj laidEq
      obtain ⟨⟨_, leads, _⟩, smEq, _⟩ := readAssignment_ok firstRan
      intro assignment member
      rcases List.mem_cons.mp member with rfl | later
      · exact ⟨sm, smEq, readAssignment_of_steady steady stores firstRan⟩
      · exact ih (stores.of_leads steady leads) restRan assignment later

end Objects

section Maps

variable {dictionary : Option ObjectDictionary} {slave : Int} {timeout : Number}
  {table : MailboxTable} {session after : Session MemoryEngine} {map : PdoMap}

/-- All assignments of a layout have the objects that the table lists. -/
theorem resolve_of_steady (steady : table.Steady) (stores : Stores slave table session.engine)
    (resolved : resolve dictionary slave timeout session = .ok map after) :
    ∀ assignment ∈ map, Lists table assignment := by
  obtain ⟨count, counted, countRan, bodyRan⟩ := bind_eq_ok_iff.mp resolved
  obtain ⟨_, storesCounted⟩ := readUnsigned_of_steady steady stores countRan
  by_cases few : count ≤ 2
  · simp only [few, if_true, bind_eq_ok_iff, pure_eq_ok_iff] at bodyRan
    obtain ⟨_, _, _, rfl, _⟩ := bodyRan
    exact fun _ member => absurd member List.not_mem_nil
  · simp only [few, if_false] at bodyRan
    obtain ⟨last, limited, lastRan, typesRan⟩ := bind_eq_ok_iff.mp bodyRan
    obtain ⟨types, typed, typesRead, outputsRan⟩ := bind_eq_ok_iff.mp typesRan
    obtain ⟨⟨outputs, middle⟩, written, outputsRead, inputsRan⟩ := bind_eq_ok_iff.mp outputsRan
    obtain ⟨⟨inputs, stop⟩, finished, inputsRead, done⟩ := bind_eq_ok_iff.mp inputsRan
    obtain ⟨rfl, rfl⟩ := pure_eq_ok_iff.mp done
    rw [← (lastSyncManager_ok lastRan).1] at storesCounted
    obtain ⟨_, typesLead, _⟩ := readTypes_ok List.nodup_range' typesRead
    have storesTyped : Stores (Source.mk dictionary slave timeout).slave table typed.engine :=
      storesCounted.of_leads steady typesLead
    obtain ⟨⟨_, outputsLead, _⟩, _⟩ := readAssignments_ok outputsRead
    have storesWritten := storesTyped.of_leads steady outputsLead
    have listsOutputs := readAssignments_of_steady steady storesTyped outputsRead
    have listsInputs := readAssignments_of_steady steady storesWritten inputsRead
    intro assignment member
    exact (List.mem_append.mp member).elim (listsOutputs assignment) (listsInputs assignment)

theorem number?_of_leads {transcript : Transcript} {engine stop : MemoryEngine}
    {entry : EntryIndex} {width value stored : Nat} (steady : table.Steady)
    (stores : Stores slave table engine)
    (leads : Transcript.Leads slave timeout engine transcript stop)
    (told : transcript.number? entry width = some value)
    (holds : table.number? entry width = some stored) : value = stored := by
  induction leads with
  | nil => cases told
  | @cons _ _ _ upload _ answered _ ih =>
      obtain ⟨uploaded, kept⟩ := upload_of_steady steady stores answered
      rw [Transcript.number?_cons] at told
      by_cases same : upload.entry = entry
      · rw [if_pos same] at told
        rw [same] at uploaded
        rw [Table.number?_of_stored uploaded] at holds
        exact Option.some.inj (told.symm.trans (Option.ite_none_left_eq_some.mp holds).2)
      · rw [if_neg same] at told
        exact ih kept told

/-- The layout of a slave with a steady mailbox has one assignment for a sync manager whose type
the table says to be one of process data, with the objects that the table lists. -/
theorem assigns_of_steady {count sm : Nat} {type : SyncManagerType} (steady : table.Steady)
    (stores : Stores slave table session.engine)
    (counted : table.number? ⟨typesIndex, 0⟩ 1 = some count)
    (considered : 2 ≤ sm ∧ sm ≤ min (count - 1) 8)
    (typed : table.number? ⟨typesIndex, (sm + 1 : Nat)⟩ 1 = some type.code)
    (directed : type = .outputs ∨ type = .inputs)
    (resolved : resolve dictionary slave timeout session = .ok map after) :
    map.Assigns sm type ((table.pdosOf sm).filter table.maps) := by
  obtain ⟨transcript, reported, outputs, inputs, leads, rfl, laid⟩ := resolve_ok resolved
  have layout := laid.layoutOf
  have countEq : reported = count :=
    number?_of_leads steady stores leads layout.counted counted
  subst countEq
  obtain ⟨code, told⟩ := Option.isSome_iff_exists.mp
    (layout.known sm considered.1 considered.2)
  have codeEq : code = type.code := number?_of_leads steady stores leads told typed
  subst codeEq
  have isReported : Reported transcript reported sm type := by
    refine ⟨sm, rfl, considered.1, considered.2, ?_⟩
    rcases directed with rfl | rfl
    · exact Or.inl ⟨rfl, told⟩
    · exact Or.inr ⟨rfl, told⟩
  obtain ⟨assignment, member, smEq, typeEq⟩ := (layout.assigned sm type).mpr isReported
  obtain ⟨number, numberEq, pdosEq⟩ := resolve_of_steady steady stores resolved assignment member
  have sameNumber : number = sm := by
    rw [smEq] at numberEq
    exact (Int.ofNat.inj numberEq).symm
  subst sameNumber
  refine ⟨assignment, ?_, typeEq, pdosEq⟩
  exact PdoMap.filter_sm_eq_singleton layout.once member smEq

end Maps

end Layout

namespace Assignment

open Layout

variable {direction : Direction} {pdos : List Int} {table : MailboxTable}

theorem steady_putAll {made : List Step} (steady : table.Steady) :
    (Step.putAll table made).Steady := by
  induction made generalizing table with
  | nil => exact steady
  | cons step rest ih =>
      rw [Step.putAll, List.foldl_cons]
      apply ih
      intro entry script held
      rw [Table.get?_put] at held
      split at held
      · cases held
        exact Nat.le_refl 1
      · exact steady entry script held

/-- A list of objects in force is what the table lists for the sync manager of its direction. -/
theorem pdosOf_of_assigned {sm : Nat} (index : direction.index = assignmentIndex sm)
    (assigned : Assigned direction pdos table) : table.pdosOf sm = pdos := by
  have counted : table.number? ⟨assignmentIndex sm, 0⟩ 1 = some pdos.length := by
    rw [← index, Table.number?_of_stored assigned.counted]
    simp [Bytes.toNat, UInt8.toNat_ofNat_of_lt' assigned.short]
  rw [Table.pdosOf, counted, Option.getD_some]
  apply List.ext_getElem
  · rw [List.length_map, List.length_range']
  · intro place _ inside
    obtain ⟨nonneg, bounded, listed⟩ := assigned.listed place _ (List.getElem?_eq_getElem inside)
    have numbered : table.number? ⟨assignmentIndex sm, (1 + 1 * place : Nat)⟩ 2 =
        some (pdos[place]).toNat := by
      rw [← index, Nat.one_mul, Nat.add_comm, Table.number?_of_stored listed]
      rw [if_neg (by simp), List.take_of_length_le (by simp), Bytes.toNat_ofNat,
        Nat.mod_eq_of_lt (by omega)]
    rw [List.getElem_map, List.getElem_range', Table.pdoAt, numbered, Option.getD_some]
    exact Int.toNat_of_nonneg nonneg

/-- After objects were assigned to a slave with a steady mailbox, which reports sync manager 2 for
outputs and sync manager 3 for inputs, its layout has these objects in their order, but those that
map nothing. -/
theorem assigns_of_configure {slave : Int} {found : SimulatedSlave} {count : Nat} {lists : PdoLists}
    {dictionary : Option ObjectDictionary} {timeout readTimeout : Number}
    {session configured after : Session MemoryEngine} {map : PdoMap}
    (present : session.engine.segment.slave? slave = some found)
    (steady : found.mailbox.Steady)
    (counted : found.mailbox.number? ⟨typesIndex, 0⟩ 1 = some count) (enough : 4 ≤ count)
    (outputsTyped : found.mailbox.number? ⟨typesIndex, 3⟩ 1 = some SyncManagerType.outputs.code)
    (inputsTyped : found.mailbox.number? ⟨typesIndex, 4⟩ 1 = some SyncManagerType.inputs.code)
    (configures : configure slave lists timeout session = .ok () configured)
    (resolves : resolve dictionary slave readTimeout configured = .ok map after) :
    ∃ table : MailboxTable,
      configured.engine.segment.slave? slave = some { found with mailbox := table } ∧
      map.Assigns 2 .outputs (lists.rx.filter table.maps) ∧
      map.Assigns 3 .inputs (lists.tx.filter table.maps) := by
  obtain ⟨fits, engineEq⟩ := (makes_configure slave lists timeout).completed configures
  let table : MailboxTable := Step.putAll found.mailbox (steps lists)
  have presentAfter :
      configured.engine.segment.slave? slave = some { found with mailbox := table } := by
    rw [engineEq]
    exact MemoryEngine.slave?_storing present _
  have stores : MemoryEngine.Stores slave table configured.engine :=
    ⟨_, presentAfter, fun _ => rfl⟩
  have steadyAfter : table.Steady := steady_putAll steady
  have others := (interrupted_putAll (List.prefix_refl _) fits found.mailbox).others
  have typesKept (subindex : Int) (width : Nat) :
      table.number? ⟨typesIndex, subindex⟩ width =
        found.mailbox.number? ⟨typesIndex, subindex⟩ width :=
    Table.number?_congr (others _ (by simp [typesIndex, outputs]) (by simp [typesIndex, inputs])) _
  rw [← typesKept] at counted outputsTyped inputsTyped
  obtain ⟨outputsAssigned, inputsAssigned⟩ := assigned_steps fits found.mailbox
  refine ⟨table, presentAfter, ?_, ?_⟩
  · have assigns : map.Assigns (2 : Nat) .outputs ((table.pdosOf 2).filter table.maps) :=
      assigns_of_steady steadyAfter stores counted (by omega) outputsTyped (Or.inl rfl) resolves
    rwa [pdosOf_of_assigned rfl outputsAssigned] at assigns
  · have assigns : map.Assigns (3 : Nat) .inputs ((table.pdosOf 3).filter table.maps) :=
      assigns_of_steady steadyAfter stores counted (by omega) inputsTyped (Or.inr rfl) resolves
    rwa [pdosOf_of_assigned rfl inputsAssigned] at assigns

/-- A slave with three objects that can be assigned, one of which maps nothing. -/
def assignableSlave : SimulatedSlave :=
  { SimulatedSlave.plain with
    mailbox := [
      (⟨0x1c00, 0⟩, [.data [4]]), (⟨0x1c00, 3⟩, [.data [3]]), (⟨0x1c00, 4⟩, [.data [4]]),
      (⟨0x1600, 0⟩, [.data [1]]), (⟨0x1600, 1⟩, [.data (mappingWord 0x7000 1 8)]),
      (⟨0x1601, 0⟩, [.data [0]]),
      (⟨0x1a00, 0⟩, [.data [1]]), (⟨0x1a00, 1⟩, [.data (mappingWord 0x6000 1 16)])] }

/-- An object that is assigned twice is resolved twice, and one that maps nothing is left out. -/
theorem assigns_of_configure_twice :
    ∃ configured map after,
      configure 0 ⟨[0x1600, 0x1601, 0x1600], [0x1a00]⟩ defaultTimeout
        (sessionWith assignableSlave) = .ok () configured ∧
      resolve none 0 defaultTimeout configured = .ok map after ∧
      ∃ table : MailboxTable,
        configured.engine.segment.slave? 0 = some { assignableSlave with mailbox := table } ∧
        map.Assigns 2 .outputs ([0x1600, 0x1601, 0x1600].filter table.maps) ∧
        map.Assigns 3 .inputs ([0x1a00].filter table.maps) := by
  let lists : PdoLists := ⟨[0x1600, 0x1601, 0x1600], [0x1a00]⟩
  have configures : result? (configure 0 lists defaultTimeout (sessionWith assignableSlave)) =
      some () := by
    decide +kernel
  obtain ⟨configured, assigned⟩ := exists_ok_of_result? configures
  have resolves : (result? (resolve none 0 defaultTimeout
      (final (configure 0 lists defaultTimeout (sessionWith assignableSlave))))).isSome := by
    decide +kernel
  rw [assigned] at resolves
  obtain ⟨map, resolvedEq⟩ := Option.isSome_iff_exists.mp resolves
  obtain ⟨after, resolved⟩ := exists_ok_of_result? resolvedEq
  have present : (sessionWith assignableSlave).engine.segment.slave? 0 = some assignableSlave := rfl
  have steady : Table.Steady assignableSlave.mailbox := Table.steady_of_forall_mem (by decide)
  exact ⟨configured, map, after, assigned, resolved,
    assigns_of_configure present steady (by decide +kernel) (Nat.le_refl 4)
      (by decide +kernel) (by decide +kernel) assigned resolved⟩

end Assignment

end Fieldbus
