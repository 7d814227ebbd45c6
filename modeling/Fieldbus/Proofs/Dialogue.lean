import Fieldbus.Dictionary.Discovery
import Fieldbus.Pdo.Assignment
import Fieldbus.Pdo.Layout
import Fieldbus.Proofs.Couples

/-!
# Dialogues with an engine

What a session asks of its engine, whatever the engine answers.  A session that only asks
requests of some kind does to the engine only what such requests do, fails only as they do
or as it does itself, and cannot tell two engines apart that answer them alike.
-/

namespace Fieldbus

namespace Engine

variable {ε : Type} [Engine ε]

/-- The requests that read the process data map of a slave. -/
inductive Uploads (slave : Int) : {α : Type} → Action ε α → Prop
  | upload (entry : EntryIndex) (size : Int) (timeout : Number) :
      Uploads slave (Engine.upload slave entry false size timeout)

/-- The requests that read the dictionary and the process data map of a slave. -/
inductive Reads (slave : Int) : {α : Type} → Action ε α → Prop
  | upload (entry : EntryIndex) (size : Int) (timeout : Number) :
      Reads slave (Engine.upload slave entry false size timeout)
  | objectList : Reads slave (Engine.objectList slave)
  | objectDescription (item : Int) : Reads slave (Engine.objectDescription slave item)
  | entryList (item : Int) : Reads slave (Engine.entryList slave item)

/-- All requests to an engine. -/
inductive IsRequest : {α : Type} → Action ε α → Prop
  | connect (adapter : Payload) : IsRequest (Engine.connect adapter)
  | disconnect : IsRequest Engine.disconnect
  | enumerate : IsRequest Engine.enumerate
  | mapImage : IsRequest Engine.mapImage
  | configureClocks : IsRequest Engine.configureClocks
  | slaveInfo (slave : Int) : IsRequest (Engine.slaveInfo slave)
  | requestState (state : Int) : IsRequest (Engine.requestState state)
  | checkState (state : Int) (timeout : Number) : IsRequest (Engine.checkState state timeout)
  | readState : IsRequest Engine.readState
  | slaveState (slave : Int) : IsRequest (Engine.slaveState slave)
  | upload (slave : Int) (entry : EntryIndex) (complete : Bool) (size : Int)
      (timeout : Number) : IsRequest (Engine.upload slave entry complete size timeout)
  | download (slave : Int) (entry : EntryIndex) (complete : Bool) (data : Bytes)
      (timeout : Number) : IsRequest (Engine.download slave entry complete data timeout)
  | objectList (slave : Int) : IsRequest (Engine.objectList slave)
  | objectDescription (slave item : Int) : IsRequest (Engine.objectDescription slave item)
  | entryList (slave item : Int) : IsRequest (Engine.entryList slave item)
  | expectedWkc : IsRequest Engine.expectedWkc
  | outputRange (slave : Int) : IsRequest (Engine.outputRange slave)
  | inputRange (slave : Int) : IsRequest (Engine.inputRange slave)
  | exchange (timeout : Number) : IsRequest (Engine.exchange timeout)

/-- The requests that neither bind nor unbind an engine and do not lay out its image. -/
inductive IsRoutine : {α : Type} → Action ε α → Prop
  | enumerate : IsRoutine Engine.enumerate
  | configureClocks : IsRoutine Engine.configureClocks
  | slaveInfo (slave : Int) : IsRoutine (Engine.slaveInfo slave)
  | requestState (state : Int) : IsRoutine (Engine.requestState state)
  | checkState (state : Int) (timeout : Number) : IsRoutine (Engine.checkState state timeout)
  | readState : IsRoutine Engine.readState
  | slaveState (slave : Int) : IsRoutine (Engine.slaveState slave)
  | upload (slave : Int) (entry : EntryIndex) (complete : Bool) (size : Int)
      (timeout : Number) : IsRoutine (Engine.upload slave entry complete size timeout)
  | download (slave : Int) (entry : EntryIndex) (complete : Bool) (data : Bytes)
      (timeout : Number) : IsRoutine (Engine.download slave entry complete data timeout)
  | objectList (slave : Int) : IsRoutine (Engine.objectList slave)
  | objectDescription (slave item : Int) : IsRoutine (Engine.objectDescription slave item)
  | entryList (slave item : Int) : IsRoutine (Engine.entryList slave item)
  | expectedWkc : IsRoutine Engine.expectedWkc
  | outputRange (slave : Int) : IsRoutine (Engine.outputRange slave)
  | inputRange (slave : Int) : IsRoutine (Engine.inputRange slave)
  | exchange (timeout : Number) : IsRoutine (Engine.exchange timeout)

/-- What an engine is told: that the process-data task starts or ends, and that time passes. -/
inductive IsEvent : (ε → ε) → Prop
  | taskStarted : IsEvent Engine.taskStarted
  | taskJoined : IsEvent Engine.taskJoined
  | wait (seconds : Binary64) : IsEvent (Engine.wait · seconds)

theorem Uploads.reads {slave : Int} {α : Type} {request : Action ε α}
    (uploads : Uploads slave request) : Reads slave request := by
  cases uploads with
  | upload entry size timeout => exact .upload entry size timeout

theorem IsRoutine.isRequest {α : Type} {request : Action ε α} (routine : IsRoutine request) :
    IsRequest request := by
  cases routine <;> constructor

theorem Reads.isRoutine {slave : Int} {α : Type} {request : Action ε α}
    (reads : Reads slave request) : IsRoutine request := by
  cases reads with
  | upload entry size timeout => exact .upload slave entry false size timeout
  | objectList => exact .objectList slave
  | objectDescription item => exact .objectDescription slave item
  | entryList item => exact .entryList slave item

end Engine

namespace Session

variable {ε : Type} {asks others : ∀ {α : Type}, Action ε α → Prop} {throws : Fault → Prop}

/-- An action of a session that asks the engine only for what is allowed, and throws only
what is allowed, also where it changes the fault of a request. -/
inductive Talks (asks : ∀ {α : Type}, Action ε α → Prop) (throws : Fault → Prop) :
    {α : Type} → Action (Session ε) α → Prop
  | pure {α : Type} (value : α) : Talks asks throws (Pure.pure value)
  | throw {α : Type} {fault : Fault} :
      throws fault → Talks asks throws (MonadExcept.throw fault : Action (Session ε) α)
  | ask {α : Type} {request : Action ε α} :
      asks request → Talks asks throws (Session.ask request)
  | report (notice : Notice) : Talks asks throws (Session.report notice)
  | mapFault {α : Type} {change : Fault → Fault} {action : Action (Session ε) α} :
      (∀ fault, throws fault → throws (change fault)) → Talks asks throws action →
      Talks asks throws (Action.mapFault change action)
  | bind {α β : Type} {action : Action (Session ε) α} {next : α → Action (Session ε) β} :
      Talks asks throws action → (∀ value, Talks asks throws (next value)) →
      Talks asks throws (action >>= next)

def anyFault (_ : Fault) : Prop := True

namespace Talks

/-- An action that asks for less is not restricted in what it throws. -/
theorem mono (weaker : ∀ {α : Type} {request : Action ε α}, asks request → others request)
    {α : Type} {action : Action (Session ε) α} (talks : Talks asks throws action) :
    Talks others anyFault action := by
  induction talks with
  | pure value => exact .pure value
  | throw _ => exact .throw trivial
  | ask allowed => exact .ask (weaker allowed)
  | report notice => exact .report notice
  | mapFault _ _ ih => exact .mapFault (fun _ _ => trivial) ih
  | bind _ _ first second => exact .bind first second

theorem ofAccident {α : Type} (result : Except Accident α) :
    Talks asks anyFault (Action.ofAccident result) := by
  cases result with
  | ok value => exact .pure value
  | error accident => exact .throw trivial

/-- An action of a session moves along what its requests and its notices move along. -/
theorem moves {relation : Session ε → Session ε → Prop} [IsPreorder (Session ε) relation]
    (asked : ∀ {α : Type} {request : Action ε α}, asks request →
      Action.Moves relation (Session.ask request))
    (reported : ∀ notice, Action.Moves relation (Session.report notice))
    {α : Type} {action : Action (Session ε) α} (talks : Talks asks throws action) :
    Action.Moves relation action := by
  induction talks with
  | pure value => exact Action.Moves.pure value
  | throw _ => exact Action.Moves.throw _
  | ask allowed => exact asked allowed
  | report notice => exact reported notice
  | mapFault _ _ ih => exact ih.mapFault _
  | bind _ _ first second => exact first.bind second

/-- An action of a session fails as its requests fail or with what it throws. -/
theorem contained {proper : Session ε → Prop}
    (asked : ∀ {α : Type} {request : Action ε α}, asks request →
      Action.Contained proper throws (fun _ => True) (Session.ask request))
    (reported : ∀ notice, Action.Contained proper throws (fun _ => True) (Session.report notice))
    {α : Type} {action : Action (Session ε) α} (talks : Talks asks throws action) :
    Action.Contained proper throws (fun _ => True) action := by
  induction talks with
  | pure value => exact Action.Contained.pure trivial
  | throw allowed => exact Action.Contained.throw allowed
  | ask allowed => exact asked allowed
  | report notice => exact reported notice
  | mapFault changes _ ih => exact ih.mapFault changes
  | bind _ _ first second => exact first.bind fun value _ => second value

/-- Two runs of an action of a session couple if those of its requests and notices do. -/
theorem couples {states : Session ε → Session ε → Prop}
    (asked : ∀ {α : Type} {request : Action ε α}, asks request →
      Action.Couples states Eq (Session.ask request) (Session.ask request))
    (reported : ∀ notice,
      Action.Couples states Eq (Session.report notice) (Session.report notice))
    {α : Type} {action : Action (Session ε) α} (talks : Talks asks throws action) :
    Action.Couples states Eq action action := by
  induction talks with
  | pure value => exact Action.Couples.pure rfl
  | throw _ => exact Action.Couples.throw _
  | ask allowed => exact asked allowed
  | report notice => exact reported notice
  | mapFault _ _ ih => exact ih.mapFault _
  | bind _ _ first second =>
      refine first.bind ?_
      rintro value _ rfl
      exact second value

end Talks

end Session

section Dialogues

open Session Engine

variable {ε : Type} [Engine ε] {asks : ∀ {α : Type}, Action ε α → Prop}
  {throws : Fault → Prop}

namespace Discovery

omit [Engine ε] in
theorem talks_warnAll (source : Source)
    (texts : List Text) : Talks asks throws (warnAll source texts) := by
  induction texts with
  | nil => exact .pure ()
  | cons text rest ih => exact .bind (.report _) fun _ => ih

theorem talks_readObject (slave : Int) (item : Nat) :
    Talks (ε := ε) (Reads slave) anyFault (readObject slave item) := by
  refine .bind (.ask (.objectDescription item)) ?_
  intro description
  refine .bind (.ask (.entryList item)) ?_
  intro entries
  refine .bind (talks_warnAll _ _) ?_
  intro _
  exact .pure _

theorem talks_readObjectsFrom (slave : Int) (count item : Nat) (completed : List ObjectInfo) :
    Talks (ε := ε) (Reads slave) anyFault (readObjectsFrom slave count item completed) := by
  induction count generalizing item completed with
  | zero => exact .pure completed
  | succ count ih =>
      refine .bind (.mapFault (fun _ _ => trivial) (talks_readObject slave item)) ?_
      intro object
      exact ih _ _

theorem talks_readObjects (slave : Int) :
    Talks (ε := ε) (Reads slave) anyFault (readObjects slave) := by
  refine .bind (.ask .objectList) ?_
  intro indices
  exact talks_readObjectsFrom slave _ 0 []

end Discovery

namespace Layout

theorem talks_readUnsigned (slave : Int) (entry : EntryIndex) (width : Nat) (timeout : Number) :
    Talks (ε := ε) (Uploads slave) (·.isCommunication)
      (readUnsigned slave entry width timeout) := by
  refine .bind (.ask (.upload entry width timeout)) ?_
  intro raw
  split
  · exact .throw rfl
  · exact .pure _

omit [Engine ε] in
theorem talks_typeOfCode (slave : Int) (sm code : Nat) :
    Talks asks throws (typeOfCode slave sm code) := by
  rw [typeOfCode]
  split
  · exact .pure _
  · refine .bind (.report _) ?_
    intro _
    exact .pure _

theorem talks_readTypes (slave : Int) (timeout : Number) (sms : List Nat) :
    Talks (ε := ε) (Uploads slave) (·.isCommunication)
      (readTypes slave timeout sms) := by
  induction sms with
  | nil => exact .pure _
  | cons sm rest ih =>
      refine .bind (talks_readUnsigned _ _ _ _) ?_
      intro code
      refine .bind (talks_typeOfCode _ _ _) ?_
      intro type
      split
      · exact .bind (.report _) fun _ => ih
      · refine .bind ih ?_
        intro more
        exact .pure _

omit [Engine ε] in
theorem talks_warnMaybe (text : Option Text) :
    Talks asks throws (warnMaybe text) := by
  cases text with
  | none => exact .pure ()
  | some text => exact .report _

section Source

variable (source : Source) (type : SyncManagerType)

theorem talks_readEntry (pdo : Int) (subindex : Nat) (cursor : Cursor) :
    Talks (ε := ε) (Uploads source.slave) (·.isCommunication)
      (readEntry source type pdo subindex cursor) := by
  refine .bind (talks_readUnsigned _ _ _ _) ?_
  intro word
  refine .bind (talks_warnMaybe _) ?_
  intro _
  refine .bind (talks_warnMaybe _) ?_
  intro _
  exact .pure _

theorem talks_readEntries (pdo : Int) (subindices : List Nat) (cursor : Cursor) :
    Talks (ε := ε) (Uploads source.slave) (·.isCommunication)
      (readEntries source type pdo subindices cursor) := by
  induction subindices generalizing cursor with
  | nil => exact .pure _
  | cons subindex rest ih =>
      refine .bind (talks_readEntry source type _ _ _) ?_
      intro placed
      refine .bind (ih _) ?_
      intro more
      exact .pure _

omit [Engine ε] in
theorem talks_readName (pdo : Int) :
    Talks asks throws (readName source pdo) := by
  rw [readName]
  split
  · exact .pure _
  · refine .bind (.report _) ?_
    intro _
    exact .pure _

theorem talks_readPdo (sm subindex : Nat) (cursor : Cursor) :
    Talks (ε := ε) (Uploads source.slave) (·.isCommunication)
      (readPdo source sm type subindex cursor) := by
  refine .bind (talks_readUnsigned _ _ _ _) ?_
  intro index
  refine .bind (talks_readUnsigned _ _ _ _) ?_
  intro count
  refine .bind (talks_readEntries source type _ _ _) ?_
  intro placed
  dsimp only
  split
  · exact .pure _
  · refine .bind (talks_readName source _) ?_
    intro name
    exact .pure _

theorem talks_readPdos (sm : Nat) (subindices : List Nat) (cursor : Cursor) :
    Talks (ε := ε) (Uploads source.slave) (·.isCommunication)
      (readPdos source sm type subindices cursor) := by
  induction subindices generalizing cursor with
  | nil => exact .pure _
  | cons subindex rest ih =>
      refine .bind (talks_readPdo source type _ _ _) ?_
      intro placed
      refine .bind (ih _) ?_
      intro more
      exact .pure _

theorem talks_readAssignment (sm : Nat) (cursor : Cursor) :
    Talks (ε := ε) (Uploads source.slave) (·.isCommunication)
      (readAssignment source sm type cursor) := by
  refine .bind (talks_readUnsigned _ _ _ _) ?_
  intro count
  refine .bind (talks_readPdos source type _ _ _) ?_
  intro placed
  exact .pure _

theorem talks_readAssignments (sms : List Nat) (cursor : Cursor) :
    Talks (ε := ε) (Uploads source.slave) (·.isCommunication)
      (readAssignments source type sms cursor) := by
  induction sms generalizing cursor with
  | nil => exact .pure _
  | cons sm rest ih =>
      refine .bind (talks_readAssignment source type _ _) ?_
      intro assigned
      refine .bind (ih _) ?_
      intro more
      exact .pure _

end Source

omit [Engine ε] in
theorem talks_lastSyncManager (slave : Int)
    (count : Nat) : Talks asks throws (lastSyncManager slave count) := by
  rw [lastSyncManager]
  split
  · refine .bind (.report _) ?_
    intro _
    exact .pure _
  · exact .pure _

theorem talks_resolve (dictionary : Option ObjectDictionary) (slave : Int) (timeout : Number) :
    Talks (ε := ε) (Uploads slave) (·.isCommunication)
      (resolve dictionary slave timeout) := by
  refine .bind (talks_readUnsigned _ _ _ _) ?_
  intro count
  split
  · refine .bind (.report _) ?_
    intro _
    exact .pure _
  · refine .bind (talks_lastSyncManager _ _) ?_
    intro last
    refine .bind (talks_readTypes _ _ _) ?_
    intro types
    refine .bind (talks_readAssignments ⟨dictionary, slave, timeout⟩ _ _ _) ?_
    intro outputs
    refine .bind (talks_readAssignments ⟨dictionary, slave, timeout⟩ _ _ _) ?_
    intro inputs
    exact .pure _

end Layout

namespace Assignment

theorem talks_write (slave : Int) (direction : Direction) (subindex : Nat) (data : Bytes)
    (label : Text) (timeout : Number) :
    Talks (ε := ε) IsRoutine anyFault (write slave direction subindex data label timeout) :=
  .mapFault (fun _ _ => trivial) (.ask (.download _ _ _ _ _))

theorem talks_writeIndices (slave : Int) (direction : Direction) (timeout : Number)
    (subindex : Nat) (pdos : List Int) :
    Talks (ε := ε) IsRoutine anyFault (writeIndices slave direction timeout subindex pdos) := by
  induction pdos generalizing subindex with
  | nil => exact .pure ()
  | cons pdo rest ih =>
      refine .bind (.ofAccident _) ?_
      intro data
      refine .bind (talks_write _ _ _ _ _ _) ?_
      intro _
      exact ih _

theorem talks_configure (slave : Int) (lists : PdoLists) (timeout : Number) :
    Talks (ε := ε) IsRoutine anyFault (configure slave lists timeout) := by
  have directs (direction : Direction) (pdos : List Int) :
      Talks (ε := ε) IsRoutine anyFault (writeDirection slave direction pdos timeout) := by
    refine .bind (talks_write _ _ _ _ _ _) ?_
    intro _
    refine .bind (talks_writeIndices _ _ _ _ _) ?_
    intro _
    refine .bind (.ofAccident _) ?_
    intro count
    exact talks_write _ _ _ _ _ _
  exact .bind (directs _ _) fun _ => directs _ _

end Assignment

end Dialogues

end Fieldbus
