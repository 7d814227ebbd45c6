import Fieldbus.Proofs.Dictionary.Completed
import Fieldbus.Proofs.Engine.MemoryImage
import Fieldbus.Proofs.Segment.Veil

/-!
# Dictionaries of simulated slaves

What reading the dictionary of a slave comes to, told from what is set up for the slave: all of
its objects in their order, or the fault of the first place that fails together with the objects
before it.  No request changes what is set up.
-/

namespace Fieldbus

open Fieldbus.Action

/-- What a slave says of an object. -/
def SimulatedObject.description (object : SimulatedObject) : ObjectDescription where
  index := object.index
  typeCode := object.typeCode
  objectCode := object.objectCode
  maxSubindex := object.maxSubindex
  name := object.name

/-- What is set up for the dictionary of a slave. -/
structure Listing where
  objects : List SimulatedObject
  listError : Option StackError
  descriptionError : Option (Int × StackError)
  entriesError : Option (Int × StackError)

def SimulatedSlave.listing (slave : SimulatedSlave) : Listing :=
  ⟨slave.objects, slave.listError, slave.descriptionError, slave.entriesError⟩

namespace Listing

def infos (listing : Listing) : List ObjectInfo :=
  listing.objects.mapIdx fun item object =>
    Discovery.objectInfo item object.description object.entries

def answers (listing : Listing) : List Discovery.Answer :=
  listing.objects.map fun object => ⟨object.description, object.entries⟩

/-- The fault of reading the object at a place.  Its description is asked for first. -/
def fault? (slave : Int) (listing : Listing) (item : Nat) : Option Fault :=
  match MemoryEngine.errorAt? item listing.descriptionError,
    MemoryEngine.errorAt? item listing.entriesError with
  | some error, _ => some (.objectDescription slave item [] error.text)
  | none, some error => some (.entryList slave item [] error.text)
  | none, none => none

/-- The first of some places that fails, with its fault. -/
def firstFault? (slave : Int) (listing : Listing) (places : List Nat) : Option (Nat × Fault) :=
  places.findSome? fun item => (listing.fault? slave item).map (item, ·)

/-- What reading the objects at some places comes to if those before them are read. -/
def walkAlong (slave : Int) (listing : Listing) (places : List Nat) :
    Except Fault (List ObjectInfo) :=
  match listing.firstFault? slave places with
  | some (item, fault) => .error (Discovery.withCompleted (listing.infos.take item) fault)
  | none => .ok listing.infos

/-- What reading the dictionary of a slave comes to: all objects, or the fault of the first
place that fails with the objects before it.  A list that fails has no objects. -/
def walk (slave : Int) (listing : Listing) : Except Fault (List ObjectInfo) :=
  match listing.listError with
  | some error => .error (.objectList slave error.text)
  | none => listing.walkAlong slave (List.range listing.objects.length)

variable {listing : Listing} {slave : Int}

theorem walkAlong_cons (item : Nat) (places : List Nat) :
    listing.walkAlong slave (item :: places) =
      match listing.fault? slave item with
      | some fault => .error (Discovery.withCompleted (listing.infos.take item) fault)
      | none => listing.walkAlong slave places := by
  rw [walkAlong, firstFault?, List.findSome?_cons]
  cases listing.fault? slave item with
  | some fault => rfl
  | none => rfl

theorem showsAll_infos (listing : Listing) : Discovery.ShowsAll listing.answers listing.infos := by
  have same : listing.infos = Discovery.objectsFrom 0 listing.answers := by
    apply List.ext_getElem?
    intro place
    rw [Discovery.getElem?_objectsFrom, infos, answers, List.getElem?_mapIdx, List.getElem?_map,
      Nat.zero_add, Option.map_map]
    rfl
  rw [same]
  exact Discovery.showsAll_objectsFrom listing.answers

/-- A dictionary that is read without a fault is complete. -/
theorem eq_infos_of_walk {objects : List ObjectInfo} (walked : listing.walk slave = .ok objects) :
    objects = listing.infos := by
  rw [walk] at walked
  split at walked
  · cases walked
  · rw [walkAlong] at walked
    split at walked
    · cases walked
    · exact (Except.ok.inj walked).symm

theorem fault?_of_firstFault? {places : List Nat} {item : Nat} {fault : Fault}
    (failing : listing.firstFault? slave places = some (item, fault)) :
    listing.fault? slave item = some fault := by
  obtain ⟨place, _, found⟩ := List.exists_of_findSome?_eq_some failing
  obtain ⟨_, faulty, same⟩ := Option.map_eq_some_iff.mp found
  cases same
  exact faulty

/-- A fault of reading an object takes the objects that were completed before. -/
theorem withCompleted_of_fault? {item : Nat} {fault : Fault}
    (faulty : listing.fault? slave item = some fault) (completed : List ObjectInfo) :
    (Discovery.withCompleted completed fault).isCommunication = true ∧
      (Discovery.withCompleted completed fault).completed = completed := by
  rw [fault?] at faulty
  split at faulty
  · cases faulty
    exact ⟨rfl, rfl⟩
  · cases faulty
    exact ⟨rfl, rfl⟩
  · cases faulty

/-- Reading a dictionary fails with faults of the exchange, which hold the first objects. -/
theorem of_walk_eq_error {fault : Fault} (walked : listing.walk slave = .error fault) :
    fault.isCommunication = true ∧ ∃ count, fault.completed = listing.infos.take count := by
  rw [walk] at walked
  split at walked
  · cases walked
    exact ⟨rfl, 0, List.take_zero.symm⟩
  · rw [walkAlong] at walked
    split at walked
    · rename_i item cause failing
      cases walked
      obtain ⟨caught, completed⟩ :=
        withCompleted_of_fault? (fault?_of_firstFault? failing) (listing.infos.take item)
      exact ⟨caught, item, completed⟩
    · cases walked

end Listing

namespace MemoryEngine

variable {engine : MemoryEngine} {position item : Nat} {slave : SimulatedSlave}
  {object : SimulatedObject}

theorem objectAt_of_listed (listed : slave.objects[item]? = some object) (engine : MemoryEngine) :
    objectAt slave item engine = .ok object engine := by
  have nonneg : ¬ (item : Int) < 0 := by omega
  rw [objectAt, if_neg nonneg, Int.toNat_natCast, listed]
  rfl

theorem objectList_apply (found : engine.segment.slaves[position]? = some slave) :
    objectList position engine =
      ofExcept (match slave.listError with
        | some error => .error (.objectList position error.text)
        | none => .ok (slave.objects.map SimulatedObject.index)) engine := by
  have located : slaveAt position engine = .ok (position, slave) engine := by
    rw [slaveAt_apply, found]
  rw [objectList, bind_of_ok located]
  cases failing : slave.listError with
  | some error =>
      simp only [failing]
      rfl
  | none =>
      simp only [failing]
      rfl

theorem objectDescription_apply (found : engine.segment.slaves[position]? = some slave)
    (listed : slave.objects[item]? = some object) :
    objectDescription position item engine =
      ofExcept (match errorAt? item slave.descriptionError with
        | some error => .error (.objectDescription position item [] error.text)
        | none => .ok object.description) engine := by
  have located : slaveAt position engine = .ok (position, slave) engine := by
    rw [slaveAt_apply, found]
  rw [objectDescription, bind_of_ok located]
  cases failing : errorAt? item slave.descriptionError with
  | some error =>
      simp only [failing]
      rfl
  | none =>
      simp only [failing]
      rw [bind_of_ok (objectAt_of_listed listed engine)]
      rfl

theorem entryList_apply (found : engine.segment.slaves[position]? = some slave)
    (listed : slave.objects[item]? = some object) :
    entryList position item engine =
      ofExcept (match errorAt? item slave.entriesError with
        | some error => .error (.entryList position item [] error.text)
        | none => .ok object.entries) engine := by
  have located : slaveAt position engine = .ok (position, slave) engine := by
    rw [slaveAt_apply, found]
  rw [entryList, bind_of_ok located]
  cases failing : errorAt? item slave.entriesError with
  | some error =>
      simp only [failing]
      rfl
  | none =>
      simp only [failing]
      rw [bind_of_ok (objectAt_of_listed listed engine)]
      rfl

end MemoryEngine

namespace Discovery

variable {session : Session MemoryEngine} {position : Nat} {slave : SimulatedSlave}

theorem exists_readObject {item : Nat} {object : SimulatedObject}
    (found : session.engine.segment.slaves[position]? = some slave)
    (listed : slave.objects[item]? = some object) :
    ∃ notices, readObject position item session =
      ofExcept (match slave.listing.fault? position item with
        | some fault => .error fault
        | none => .ok (objectInfo item object.description object.entries))
        ⟨session.engine, notices⟩ := by
  have described := MemoryEngine.objectDescription_apply found listed
  have entered := MemoryEngine.entryList_apply found listed
  rw [Listing.fault?]
  simp only [SimulatedSlave.listing]
  cases failing : MemoryEngine.errorAt? item slave.descriptionError with
  | some error =>
      rw [failing] at described
      have asked : Session.ask (Engine.objectDescription position item) session =
          .error (.objectDescription position item [] error.text) session :=
        Session.ask_of_error described
      exact ⟨session.notices, bind_of_error asked⟩
  | none =>
      rw [failing] at described
      have asked : Session.ask (Engine.objectDescription position item) session =
          .ok object.description session := Session.ask_of_ok described
      cases failing : MemoryEngine.errorAt? item slave.entriesError with
      | some error =>
          rw [failing] at entered
          have refused : Session.ask (Engine.entryList position item) session =
              .error (.entryList position item [] error.text) session :=
            Session.ask_of_error entered
          exact ⟨session.notices, (bind_of_ok asked).trans (bind_of_error refused)⟩
      | none =>
          rw [failing] at entered
          have answered : Session.ask (Engine.entryList position item) session =
              .ok object.entries session := Session.ask_of_ok entered
          obtain ⟨notices, warned⟩ := exists_warnAll .dictionary
            ((objectInfo item object.description object.entries).entries.filterMap
              (entryWarning? position)) session
          exact ⟨notices, (bind_of_ok asked).trans
            ((bind_of_ok answered).trans (bind_of_ok warned))⟩

theorem take_succ_infos {item : Nat} {object : SimulatedObject}
    (listed : slave.objects[item]? = some object) :
    slave.listing.infos.take (item + 1) =
      slave.listing.infos.take item ++ [objectInfo item object.description object.entries] := by
  have read : slave.listing.infos[item]? =
      some (objectInfo item object.description object.entries) := by
    rw [Listing.infos, SimulatedSlave.listing, List.getElem?_mapIdx, listed]
    rfl
  rw [List.take_add_one, read]
  rfl

/-- Objects are read one after the other, up to the first that fails. -/
theorem exists_readObjectsFrom {count item : Nat}
    (found : session.engine.segment.slaves[position]? = some slave)
    (whole : item + count = slave.objects.length) :
    ∃ notices, readObjectsFrom position count item (slave.listing.infos.take item) session =
      ofExcept (slave.listing.walkAlong position (List.range' item count))
        ⟨session.engine, notices⟩ := by
  induction count generalizing item session with
  | zero =>
      have all : slave.listing.infos.take item = slave.listing.infos := by
        apply List.take_of_length_le
        rw [Listing.infos, List.length_mapIdx]
        exact whole.symm.le
      exact ⟨session.notices, by rw [readObjectsFrom, all]; rfl⟩
  | succ count ih =>
      have inside : item < slave.objects.length := by omega
      have listed := List.getElem?_eq_getElem inside
      obtain ⟨notices, read⟩ := exists_readObject found listed
      rw [List.range'_succ, Listing.walkAlong_cons, readObjectsFrom]
      cases faulty : slave.listing.fault? position item with
      | some fault =>
          rw [faulty] at read
          exact ⟨notices, bind_of_error (mapFault_eq_error_iff.mpr ⟨fault, read, rfl⟩)⟩
      | none =>
          rw [faulty] at read
          rw [bind_of_ok (mapFault_eq_ok_iff.mpr read), ← take_succ_infos listed]
          exact ih found (by omega)

/-- Reading the dictionary of a slave comes to what is set up for it. -/
theorem exists_readObjects (found : session.engine.segment.slaves[position]? = some slave) :
    ∃ notices, readObjects position session =
      ofExcept (slave.listing.walk position) ⟨session.engine, notices⟩ := by
  have listed := MemoryEngine.objectList_apply found
  rw [Listing.walk]
  simp only [SimulatedSlave.listing]
  cases failing : slave.listError with
  | some error =>
      rw [failing] at listed
      have asked : Session.ask (Engine.objectList position) session =
          .error (.objectList position error.text) session := Session.ask_of_error listed
      exact ⟨session.notices, bind_of_error asked⟩
  | none =>
      rw [failing] at listed
      have asked : Session.ask (Engine.objectList position) session =
          .ok (slave.objects.map SimulatedObject.index) session := Session.ask_of_ok listed
      rw [readObjects, bind_of_ok asked, List.length_map]
      have read := exists_readObjectsFrom found (Nat.zero_add slave.objects.length)
      rw [← List.range_eq_range'] at read
      exact read

theorem readObjects_of_missing (missing : session.engine.segment.slaves[position]? = none) :
    readObjects position session = .error (.accident .position) session := by
  have located : MemoryEngine.slaveAt position session.engine =
      .error (.accident .position) session.engine := by
    rw [MemoryEngine.slaveAt_apply, missing]
  have listed : MemoryEngine.objectList position session.engine =
      .error (.accident .position) session.engine := bind_of_error located
  have asked : Session.ask (Engine.objectList position) session =
      .error (.accident .position) session := Session.ask_of_error listed
  exact bind_of_error asked

end Discovery

namespace SimulatedSlave

variable {slave : SimulatedSlave}

theorem listing_take (slave : SimulatedSlave) (state : Int) :
    (slave.take state).listing = slave.listing := by
  rw [take]
  split
  · rfl
  · rfl

theorem listing_nextItem (slave : SimulatedSlave) (entry : EntryIndex) :
    (slave.nextItem entry).2.listing = slave.listing := by
  rw [nextItem]
  split
  · rfl
  · rfl

theorem listing_nextData (index : Int) (subindices : List Int) (slave : SimulatedSlave) :
    (nextData index subindices slave).2.listing = slave.listing := by
  induction subindices generalizing slave with
  | nil => rfl
  | cons subindex rest ih =>
      have kept := (ih (slave.nextItem ⟨index, subindex⟩).2).trans (listing_nextItem _ _)
      rw [nextData]
      dsimp only
      split
      · exact kept
      · exact kept

theorem listing_answer (slave : SimulatedSlave) (entry : EntryIndex) (complete : Bool) :
    (slave.answer entry complete).2.listing = slave.listing := by
  rw [answer]
  split
  · rw [nextComplete]
    split
    · rfl
    · rfl
    · exact listing_nextData _ _ _
  · exact listing_nextItem _ _

end SimulatedSlave

namespace Segment

/-- What is set up for enumeration and for the dictionaries of the slaves. -/
def roster (segment : Segment) : Option Int × List Listing :=
  (segment.enumerated, segment.slaves.map SimulatedSlave.listing)

instance : AllowsPassing (Keep roster) where
  passes _ _ := rfl
  uploadMicros _ _ := rfl
  exchangeMicros _ _ := rfl

theorem roster_nextWkc (segment : Segment) : segment.nextWkc.2.roster = segment.roster := by
  rw [nextWkc]
  split
  · rfl
  · rfl

theorem roster_findState (segment : Segment) (state : Int) :
    (segment.findState state).2.roster = segment.roster := by
  rw [findState]
  split
  · rfl
  · rfl

theorem roster_takeState (segment : Segment) (state : Int) :
    (segment.takeState state).roster = segment.roster := by
  have same : SimulatedSlave.listing ∘ (·.take state) = SimulatedSlave.listing :=
    funext fun slave => slave.listing_take state
  rw [roster, takeState, List.map_map, same]
  rfl

/-- A slave may be replaced by one with the same dictionary. -/
theorem roster_setSlave {segment : Segment} {place : Nat} {slave : SimulatedSlave}
    (known : segment.roster.2[place]? = some slave.listing) :
    (segment.setSlave place slave).roster = segment.roster := by
  have inside := (List.getElem?_eq_some_iff.mp known).1
  have same := (List.getElem?_eq_some_iff.mp known).2
  have kept : (segment.slaves.set place slave).map SimulatedSlave.listing = segment.roster.2 := by
    rw [List.map_set, ← same]
    exact List.set_getElem_self inside
  rw [roster, setSlave, kept]
  rfl

end Segment

namespace MemoryEngine

/-- An engine with a given roster. -/
def Lists (roster : Option Int × List Listing) (engine : MemoryEngine) : Prop :=
  engine.segment.roster = roster

theorem getElem?_of_slaveAt {engine after : MemoryEngine} {slave : Int} {place : Nat}
    {found : SimulatedSlave} (located : slaveAt slave engine = .ok (place, found) after) :
    after.segment.slaves[place]? = some found := by
  rw [slaveAt, bind_of_ok (get_apply engine)] at located
  cases placeEq : engine.segment.place? slave with
  | none =>
      rw [placeEq] at located
      cases located
  | some position =>
      cases foundEq : engine.segment.slave? slave with
      | none =>
          rw [placeEq, foundEq] at located
          cases located
      | some present =>
          rw [placeEq, foundEq] at located
          cases located
          rwa [Segment.slave?, placeEq, Option.bind_some] at foundEq

section Roster

variable {α : Type} {roster : Option Int × List Listing}

theorem lists_inSegment {action : Action Segment α} (keeps : Moves (Keep Segment.roster) action) :
    Moves (Preserve (Lists roster)) (inSegment action) :=
  Moves.within_along keeps fun _ _ kept lists => kept.trans lists

theorem lists_change {update : Segment → Segment}
    (keeps : ∀ segment, (update segment).roster = segment.roster) :
    Moves (Preserve (Lists roster)) (change update) :=
  lists_inSegment (Moves.modify keeps)

/-- What is done with a slave may go by the dictionary that the roster has of it. -/
theorem lists_slaveAt {slave : Int} {next : Nat × SimulatedSlave → Action MemoryEngine α}
    (keeps : ∀ place found, roster.2[place]? = some found.listing →
      Moves (Preserve (Lists roster)) (next (place, found))) :
    Moves (Preserve (Lists roster)) (slaveAt slave >>= next) := by
  refine Moves.bind_of_ok (moves_slaveAt slave) ?_
  rintro _ ⟨place, found⟩ engine located lists
  refine keeps place found ?_ engine lists
  rw [← lists, Segment.roster, List.getElem?_map, getElem?_of_slaveAt located, Option.map_some]

theorem lists_setSlave {place : Nat} {slave : SimulatedSlave}
    (known : roster.2[place]? = some slave.listing) :
    Moves (Preserve (Lists roster)) (change (·.setSlave place slave)) := by
  rintro engine rfl
  exact Segment.roster_setSlave known

theorem lists_upload (slave : Int) (entry : EntryIndex) (complete : Bool) :
    Moves (Preserve (Lists roster)) (upload slave entry complete) := by
  apply lists_slaveAt
  intro place found known
  refine Moves.bind (lists_inSegment Segment.moves_passUpload) ?_
  intro _
  dsimp only
  refine Moves.bind (lists_setSlave ?_) ?_
  · rw [known, SimulatedSlave.listing_answer]
  intro _
  split
  · exact Moves.pure _
  · exact Moves.throw _
  · exact Moves.throw _

theorem lists_download (slave : Int) (entry : EntryIndex) (data : Bytes) :
    Moves (Preserve (Lists roster)) (download slave entry data) := by
  apply lists_slaveAt
  intro place found known
  dsimp only
  split
  · exact Moves.throw _
  · exact lists_setSlave known

theorem lists_checkState (state : Int) (timeout : Number) :
    Moves (Preserve (Lists roster)) (checkState state timeout) := by
  refine Moves.bind (lists_inSegment fun segment => Segment.roster_findState segment state) ?_
  intro found
  split
  · refine Moves.bind (Moves.ofAccident _) ?_
    intro duration
    refine Moves.bind (lists_change fun _ => rfl) ?_
    intro _
    exact Moves.pure _
  · exact Moves.pure _

theorem listing_sendOutputs (image : Bytes) (slaves : List SimulatedSlave)
    (ranges : List ImageRange) :
    (sendOutputs image slaves ranges).map SimulatedSlave.listing =
      slaves.map SimulatedSlave.listing := by
  induction slaves generalizing ranges with
  | nil => cases ranges <;> rfl
  | cons slave slaves ih =>
      cases ranges with
      | nil => rfl
      | cons range ranges =>
          rw [sendOutputs, List.map_cons, List.map_cons, ih]
          rfl

theorem lists_exchange : Moves (Preserve (Lists roster)) exchange := by
  refine Moves.bind (lists_inSegment Segment.moves_passExchange) ?_
  intro _
  refine Moves.bind (lists_inSegment Segment.roster_nextWkc) ?_
  intro answer
  split
  · exact Moves.throw _
  · refine Moves.bind (Moves.modify ?_) ?_
    · intro engine lists
      rw [← lists]
      exact congrArg (engine.segment.enumerated, ·) (listing_sendOutputs _ _ _)
    · intro _
      exact Moves.pure _

theorem lists_mapImage : Moves (Preserve (Lists roster)) mapImage := by
  intro engine lists
  rw [mapImage, bind_of_ok (get_apply engine)]
  cases engine.segment.mapError with
  | some error => exact lists
  | none => exact lists

/-- No request changes what is set up for the dictionaries. -/
theorem lists_request {request : Action MemoryEngine α} (asked : Engine.IsRequest request) :
    Moves (Preserve (Lists roster)) request := by
  have looks {β : Type} {slave : Int} {next : Nat × SimulatedSlave → Action MemoryEngine β}
      (moves : ∀ located, Moves (Preserve (Lists roster)) (next located)) :
      Moves (Preserve (Lists roster)) (slaveAt slave >>= next) :=
    Moves.bind (moves_slaveAt slave) moves
  cases asked with
  | connect adapter =>
      show Moves (Preserve (Lists roster)) connect
      refine Moves.bind Moves.get ?_
      intro engine
      split
      · exact Moves.throw _
      · exact Moves.pure _
  | disconnect => exact Moves.pure ()
  | enumerate => exact Moves.of_unmoved fun _ => rfl
  | mapImage => exact lists_mapImage
  | configureClocks => exact Moves.pure ()
  | slaveInfo slave => exact looks fun _ => Moves.pure _
  | requestState state =>
      exact lists_change fun segment => Segment.roster_takeState segment state
  | checkState state timeout => exact lists_checkState state timeout
  | readState => exact Moves.of_unmoved fun _ => rfl
  | slaveState slave => exact looks fun _ => Moves.pure _
  | upload slave entry complete size timeout => exact lists_upload slave entry complete
  | download slave entry complete data timeout => exact lists_download slave entry data
  | objectList slave =>
      refine looks ?_
      intro located
      dsimp only
      split
      · exact Moves.throw _
      · exact Moves.pure _
  | objectDescription slave item =>
      refine looks ?_
      intro located
      dsimp only
      split
      · exact Moves.throw _
      · exact Moves.bind (moves_objectAt _ _) fun _ => Moves.pure _
  | entryList slave item =>
      refine looks ?_
      intro located
      dsimp only
      split
      · exact Moves.throw _
      · exact Moves.bind (moves_objectAt _ _) fun _ => Moves.pure _
  | expectedWkc => exact Moves.of_unmoved fun _ => rfl
  | outputRange slave => exact Moves.bind Moves.get fun _ => Moves.ofExcept _
  | inputRange slave => exact Moves.bind Moves.get fun _ => Moves.ofExcept _
  | exchange timeout => exact lists_exchange

end Roster

end MemoryEngine

end Fieldbus
