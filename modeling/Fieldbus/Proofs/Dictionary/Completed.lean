import Fieldbus.Proofs.Dictionary.Discovery
import Fieldbus.Segment.MemoryEngine

/-!
# Objects that are completed before a failure

Discovery makes an object of each pair of answers that an engine gives about a place of the list.
Where a request fails, the fault takes along the objects of the answers before it.  They are the
first objects of every run in which the engine gives the same answers and no request fails.  The
warnings on the way are taken to be worded, as they are unless a length that an engine answers has
more digits than a text can hold.
-/

namespace Fieldbus

namespace Discovery

open Fieldbus.Action

/-- What an engine answers about a place of the list of objects. -/
structure Answer where
  description : ObjectDescription
  entries : List EntryDescription

namespace Answer

/-- The last subindex of the object: the one that its description names, or else that of the last
entry that is described. -/
def maxSubindex (answer : Answer) : Int :=
  match answer.description.maxSubindex with
  | some maxSubindex => maxSubindex
  | none => max ((answer.entries.length : Int) - 1) 0

def object (place : Nat) (answer : Answer) : ObjectInfo :=
  objectInfo place answer.description answer.entries

end Answer

/-- The objects that are made of the answers from a place on. -/
def objectsFrom : (place : Nat) → List Answer → List ObjectInfo
  | _, [] => []
  | place, answer :: rest => answer.object place :: objectsFrom (place + 1) rest

/-- An entry has an address, and all else that is known of it is what a description says. -/
structure Reports (entry : EntryIndex) (description : EntryDescription) (info : EntryInfo) :
    Prop where
  entry : info.entry = entry
  typeCode : info.typeCode = description.typeCode
  dataType : info.dataType = DataType.ofCode? description.typeCode
  bitLength : info.bitLength = description.bitLength
  access : info.access = EntryAccess.ofBits description.access
  name : info.name = description.name

/-- An object is what an engine answered about its place: it has a slot for each subindex up to the
last one, each slot holds what the engine says of it, and the slots that the engine does not
describe are empty. -/
structure Shows (place : Nat) (answer : Answer) (object : ObjectInfo) : Prop where
  position : object.position = place
  index : object.index = answer.description.index
  objectCode : object.objectCode = answer.description.objectCode
  name : object.name = answer.description.name
  maxSubindex : object.maxSubindex = answer.maxSubindex
  addresses : object.entries.map EntryInfo.entry =
    (List.range (object.maxSubindex + 1).toNat).map fun slot => ⟨object.index, (slot : Int)⟩
  described : ∀ {slot : Nat} {info : EntryInfo} {description : EntryDescription},
    object.entries[slot]? = some info → answer.entries[slot]? = some description →
      Reports ⟨object.index, slot⟩ description info
  padded : ∀ {slot : Nat} {info : EntryInfo},
    object.entries[slot]? = some info → answer.entries[slot]? = none →
      Reports ⟨object.index, slot⟩ ⟨0, 0, 0, .text ""⟩ info ∧ info.isDecodable = false

/-- There is one object for each answer, and it is what the answer says. -/
def ShowsAll (answers : List Answer) (objects : List ObjectInfo) : Prop :=
  objects.length = answers.length ∧
    ∀ (place : Nat) (answer : Answer) (object : ObjectInfo), answers[place]? = some answer →
      objects[place]? = some object → Shows place answer object

section Objects

variable {place : Nat} {answers more : List Answer}

theorem reports_entryInfo (index : Int) (slot : Nat) (description : EntryDescription) :
    Reports ⟨index, slot⟩ description (entryInfo index slot description) :=
  ⟨rfl, rfl, rfl, rfl, rfl, rfl⟩

theorem maxSubindex_object (place : Nat) (answer : Answer) :
    (answer.object place).maxSubindex = answer.maxSubindex := by
  rw [Answer.object, objectInfo, Answer.maxSubindex]
  cases answer.description.maxSubindex with
  | some maxSubindex => rfl
  | none =>
      show ((answer.entries.length - 1 : Nat) : Int) = max ((answer.entries.length : Int) - 1) 0
      omega

/-- A slot holds what is said of it, or else what stands for a missing description. -/
theorem getElem?_object {slot : Nat} {answer : Answer} {info : EntryInfo}
    (found : (answer.object place).entries[slot]? = some info) :
    info = entryInfo (answer.object place).index slot
      (answer.entries[slot]?.getD missingEntry) := by
  rw [Answer.object, objectInfo] at found
  simp only [List.getElem?_map, Option.map_eq_some_iff] at found
  obtain ⟨subindex, listed, rfl⟩ := found
  obtain ⟨inside, value⟩ := List.getElem?_eq_some_iff.mp listed
  rw [List.getElem_range] at value
  rw [value]
  rfl

theorem shows_object (place : Nat) (answer : Answer) :
    Shows place answer (answer.object place) where
  position := rfl
  index := rfl
  objectCode := rfl
  name := rfl
  maxSubindex := maxSubindex_object place answer
  addresses := by
    show List.map EntryInfo.entry (List.map _ _) = _
    rw [List.map_map]
    rfl
  described := by
    intro slot info description found listed
    rw [getElem?_object found, listed]
    exact reports_entryInfo _ _ _
  padded := by
    intro slot info found unlisted
    rw [getElem?_object found, unlisted]
    exact ⟨reports_entryInfo _ _ _, by simp [EntryInfo.isDecodable, entryInfo, missingEntry]⟩

@[simp]
theorem length_objectsFrom (place : Nat) (answers : List Answer) :
    (objectsFrom place answers).length = answers.length := by
  induction answers generalizing place with
  | nil => rfl
  | cons answer rest ih => simp [objectsFrom, ih]

theorem getElem?_objectsFrom (place index : Nat) (answers : List Answer) :
    (objectsFrom place answers)[index]? = answers[index]?.map (·.object (place + index)) := by
  induction answers generalizing place index with
  | nil => simp [objectsFrom]
  | cons answer rest ih =>
      cases index with
      | zero => simp [objectsFrom]
      | succ index => simp [objectsFrom, ih, Nat.add_assoc, Nat.add_comm 1]

theorem objectsFrom_append (place : Nat) (answers more : List Answer) :
    objectsFrom place (answers ++ more) =
      objectsFrom place answers ++ objectsFrom (place + answers.length) more := by
  induction answers generalizing place with
  | nil => rfl
  | cons answer rest ih => simp [objectsFrom, ih, Nat.add_assoc, Nat.add_comm 1]

theorem showsAll_objectsFrom (answers : List Answer) :
    ShowsAll answers (objectsFrom 0 answers) := by
  refine ⟨length_objectsFrom 0 answers, ?_⟩
  intro place answer object answered found
  rw [getElem?_objectsFrom, answered] at found
  cases found
  rw [Nat.zero_add]
  exact shows_object place answer

end Objects

variable {ε : Type} [Engine ε] {slave : Int} {place : Nat} {engine listed stopped after : ε}
  {answers : List Answer} {indices : List Int} {fault : Fault} {session : Session ε}

/-- The answers of an engine to the requests about the objects from a place on.  The engine may
change with each request. -/
inductive Answers (slave : Int) : (place : Nat) → ε → List Answer → ε → Prop
  | nil {place : Nat} {engine : ε} : Answers slave place engine [] engine
  | cons {place : Nat} {engine described entered after : ε} {answer : Answer} {rest : List Answer}
      (description : Engine.objectDescription slave place engine =
        .ok answer.description described)
      (entries : Engine.entryList slave place described = .ok answer.entries entered)
      (later : Answers slave (place + 1) entered rest after) :
      Answers slave place engine (answer :: rest) after

/-- One of the two requests about a place fails. -/
inductive Refuses (slave : Int) (place : Nat) (engine : ε) (fault : Fault) : Prop
  | description {after : ε}
      (refused : Engine.objectDescription slave place engine = .error fault after)
  | entries {description : ObjectDescription} {described after : ε}
      (answered : Engine.objectDescription slave place engine = .ok description described)
      (refused : Engine.entryList slave place described = .error fault after)

/-- An engine lists the objects of a slave and answers all requests about them. -/
inductive AnswersAll (slave : Int) (indices : List Int) (answers : List Answer) (engine : ε) : Prop
  | intro {listed after : ε} (listing : Engine.objectList slave engine = .ok indices listed)
      (answered : Answers slave 0 listed answers after) (whole : answers.length = indices.length)

/-- An engine lists the objects of a slave and answers the requests about the first of them; the
next request fails. -/
inductive StopsAfter (slave : Int) (indices : List Int) (answers : List Answer) (fault : Fault)
    (engine : ε) : Prop
  | intro {listed stopped : ε} (listing : Engine.objectList slave engine = .ok indices listed)
      (answered : Answers slave 0 listed answers stopped)
      (inside : answers.length < indices.length)
      (refused : Refuses slave answers.length stopped fault)

/-- A fault of a request for a description. -/
inductive IsDescriptionFault : Fault → Prop
  | description (slave position : Int) (completed : List ObjectInfo) (reason : Text) :
      IsDescriptionFault (.objectDescription slave position completed reason)
  | entries (slave position : Int) (completed : List ObjectInfo) (reason : Text) :
      IsDescriptionFault (.entryList slave position completed reason)

theorem IsDescriptionFault.withCompleted (isDescription : IsDescriptionFault fault)
    (completed : List ObjectInfo) :
    IsDescriptionFault (withCompleted completed fault) ∧
      (withCompleted completed fault).completed = completed ∧
      (withCompleted completed fault).message = fault.message := by
  cases isDescription with
  | description slave position _ reason => exact ⟨.description .., rfl, rfl⟩
  | entries slave position _ reason => exact ⟨.entries .., rfl, rfl⟩

theorem readObject_of_answer {answer : Answer} {described entered : ε}
    (description : Engine.objectDescription slave place engine = .ok answer.description described)
    (entries : Engine.entryList slave place described = .ok answer.entries entered)
    (notices : Array Notice) :
    ∃ later, readObject slave place ⟨engine, notices⟩ =
      .ok (answer.object place) ⟨entered, later⟩ := by
  obtain ⟨later, warned⟩ := exists_warnAll .dictionary
    ((answer.object place).entries.filterMap (entryWarning? slave)) (⟨entered, notices⟩ : Session ε)
  refine ⟨later, ?_⟩
  rw [readObject, bind_of_ok (Session.ask_of_ok description),
    bind_of_ok (Session.ask_of_ok entries)]
  exact bind_of_ok warned

theorem Refuses.readObject (refused : Refuses slave place engine fault) (notices : Array Notice) :
    ∃ after, readObject slave place ⟨engine, notices⟩ = .error fault after := by
  cases refused with
  | description refused => exact ⟨_, bind_of_error (Session.ask_of_error refused)⟩
  | entries answered refused =>
      exact ⟨_, (bind_of_ok (Session.ask_of_ok answered)).trans
        (bind_of_error (Session.ask_of_error refused))⟩

/-- Reading goes on from where the answers end, with their objects completed. -/
theorem Answers.readObjectsFrom (answered : Answers slave place engine answers after)
    (count : Nat) (completed : List ObjectInfo) (notices : Array Notice) :
    ∃ later, readObjectsFrom slave (answers.length + count) place completed ⟨engine, notices⟩ =
      readObjectsFrom slave count (place + answers.length)
        (completed ++ objectsFrom place answers) ⟨after, later⟩ := by
  induction answered generalizing completed notices with
  | nil => exact ⟨notices, by simp [objectsFrom]⟩
  | @cons place engine described entered after answer rest description entries _ ih =>
      obtain ⟨between, read⟩ := readObject_of_answer description entries notices
      obtain ⟨later, more⟩ := ih (completed ++ [answer.object place]) between
      refine ⟨later, ?_⟩
      have counted : (answer :: rest).length + count = rest.length + count + 1 := by
        simp only [List.length_cons]
        omega
      have reached : place + (answer :: rest).length = place + 1 + rest.length := by
        simp only [List.length_cons]
        omega
      rw [counted, reached, Discovery.readObjectsFrom, bind_of_ok (mapFault_eq_ok_iff.mpr read),
        more, objectsFrom, List.append_assoc, List.singleton_append]

theorem AnswersAll.readObjects (answered : AnswersAll slave indices answers session.engine) :
    ∃ after, readObjects slave session = .ok (objectsFrom 0 answers) after := by
  obtain ⟨listing, answered, whole⟩ := answered
  obtain ⟨later, read⟩ := answered.readObjectsFrom 0 [] session.notices
  rw [Discovery.readObjects, bind_of_ok (Session.ask_of_ok listing), ← whole]
  exact ⟨_, read⟩

theorem StopsAfter.readObjects (stops : StopsAfter slave indices answers fault session.engine) :
    ∃ after, readObjects slave session =
      .error (withCompleted (objectsFrom 0 answers) fault) after := by
  obtain ⟨listing, answered, inside, refused⟩ := stops
  obtain ⟨remaining, counted⟩ := Nat.exists_eq_add_of_lt inside
  obtain ⟨later, read⟩ := answered.readObjectsFrom (remaining + 1) [] session.notices
  rw [Nat.zero_add, List.nil_append] at read
  obtain ⟨after, failed⟩ := refused.readObject later
  refine ⟨after, ?_⟩
  rw [Discovery.readObjects, bind_of_ok (Session.ask_of_ok listing), counted, Nat.add_assoc]
  exact read.trans (bind_of_error (mapFault_eq_error_iff.mpr ⟨fault, failed, rfl⟩))

/-- An engine answers all requests about some places, or there is a first one that fails. -/
theorem answers_or_refuses (slave : Int) (count place : Nat) (engine : ε) :
    (∃ answers after, Answers slave place engine answers after ∧ answers.length = count) ∨
      ∃ answers stopped fault, Answers slave place engine answers stopped ∧
        answers.length < count ∧ Refuses slave (place + answers.length) stopped fault := by
  induction count generalizing place engine with
  | zero => exact Or.inl ⟨[], engine, .nil, rfl⟩
  | succ count ih =>
      cases described : Engine.objectDescription slave place engine with
      | error fault between =>
          exact Or.inr ⟨[], engine, fault, .nil, Nat.succ_pos _, .description described⟩
      | ok description between =>
          cases listed : Engine.entryList slave place between with
          | error fault ended =>
              exact Or.inr ⟨[], engine, fault, .nil, Nat.succ_pos _, .entries described listed⟩
          | ok entries next =>
              rcases ih (place + 1) next with ⟨answers, after, answered, counted⟩ |
                  ⟨answers, stopped, fault, answered, inside, refused⟩
              · refine Or.inl ⟨⟨description, entries⟩ :: answers, after, ?_, by simp [counted]⟩
                exact .cons described listed answered
              · refine Or.inr ⟨⟨description, entries⟩ :: answers, stopped, fault, ?_, ?_, ?_⟩
                · exact .cons described listed answered
                · simpa using inside
                · rwa [List.length_cons, Nat.add_comm answers.length, ← Nat.add_assoc]

theorem answersAll_or_stopsAfter (listing : Engine.objectList slave engine = .ok indices listed) :
    (∃ answers, AnswersAll slave indices answers engine) ∨
      ∃ answers fault, StopsAfter slave indices answers fault engine := by
  rcases answers_or_refuses slave indices.length 0 listed with ⟨answers, _, answered, whole⟩ |
      ⟨answers, _, fault, answered, inside, refused⟩
  · exact Or.inl ⟨answers, listing, answered, whole⟩
  · rw [Nat.zero_add] at refused
    exact Or.inr ⟨answers, fault, listing, answered, inside, refused⟩

/-- Where all requests are answered, there is an object for each place of the list, as the engine
described it.  Where a request for a description fails first, the fault takes along the objects
before it.  They are the first objects of each run in which the same answers go on. -/
theorem readObjects_completed {ε ε' : Type} [Engine ε] [Engine ε'] (slave : Int)
    (indices : List Int) :
    (∀ (session : Session ε) answers, AnswersAll slave indices answers session.engine →
      ∃ objects after, readObjects slave session = .ok objects after ∧
        objects.length = indices.length ∧ ShowsAll answers objects) ∧
    ∀ (session : Session ε) answers fault, IsDescriptionFault fault →
      StopsAfter slave indices answers fault session.engine →
      ∃ raised after, readObjects slave session = .error raised after ∧
        IsDescriptionFault raised ∧ raised.message = fault.message ∧
        raised.completed.length = answers.length ∧ ShowsAll answers raised.completed ∧
        ∀ (whole : Session ε') more, AnswersAll slave indices (answers ++ more) whole.engine →
          ∃ objects after, readObjects slave whole = .ok objects after ∧
            raised.completed = objects.take answers.length := by
  refine ⟨?_, ?_⟩
  · intro session answers answered
    obtain ⟨after, read⟩ := answered.readObjects
    obtain ⟨_, _, whole⟩ := answered
    exact ⟨_, after, read, (length_objectsFrom 0 answers).trans whole, showsAll_objectsFrom answers⟩
  · intro session answers fault isDescription stops
    obtain ⟨after, failed⟩ := stops.readObjects
    obtain ⟨stays, completedEq, messageEq⟩ := isDescription.withCompleted (objectsFrom 0 answers)
    refine ⟨_, after, failed, stays, messageEq, ?_⟩
    rw [completedEq]
    refine ⟨length_objectsFrom 0 answers, showsAll_objectsFrom answers, ?_⟩
    intro whole more answered
    obtain ⟨wholeAfter, read⟩ := answered.readObjects
    refine ⟨_, wholeAfter, read, ?_⟩
    rw [objectsFrom_append, List.take_left' (length_objectsFrom 0 answers)]

/-- A slave that lists three objects: a plain one, one that does not describe all of its entries,
and one whose entries tell how many there are. -/
def listedSlave : SimulatedSlave :=
  { SimulatedSlave.plain with
    objects := [
      ⟨0x1000, 7, 7, some 0, .text "", [⟨7, 32, 7, .text ""⟩], 0, 0⟩,
      ⟨0x2002, 5, 9, some 3, .text "", [⟨5, 8, 7, .text ""⟩], 0, 0⟩,
      ⟨0x2003, 5, 9, none, .text "", [⟨5, 8, 7, .text ""⟩, ⟨6, 16, 7, .text ""⟩], 0, 0⟩] }

def listedAnswers : List Answer :=
  listedSlave.objects.map fun object =>
    ⟨⟨object.index, object.typeCode, object.objectCode, object.maxSubindex, object.name⟩,
      object.entries⟩

def listedSession (slave : SimulatedSlave) : Session MemoryEngine :=
  ⟨MemoryEngine.ofSegment { Segment.bare with slaves := [slave] }, #[]⟩

/-- The slave does not describe the entries of its second object. -/
def stoppingSlave : SimulatedSlave :=
  { listedSlave with entriesError := some (1, ⟨.sdoInfo, "timeout", none, none⟩) }

/-- The fault holds the first object of those that are read if all entries are described. -/
theorem readObjects_completed_stoppingSlave :
    ∃ raised after objects whole,
      readObjects 0 (listedSession stoppingSlave) = .error raised after ∧
      readObjects 0 (listedSession listedSlave) = .ok objects whole ∧ objects.length = 3 ∧
      raised.completed = objects.take 1 := by
  obtain ⟨reads, stops⟩ :=
    @readObjects_completed MemoryEngine MemoryEngine _ _ 0 [0x1000, 0x2002, 0x2003]
  have answersAll : AnswersAll 0 [0x1000, 0x2002, 0x2003] listedAnswers
      (listedSession listedSlave).engine :=
    ⟨rfl, .cons rfl rfl (.cons rfl rfl (.cons rfl rfl .nil)), rfl⟩
  have stopsAfter : StopsAfter 0 [0x1000, 0x2002, 0x2003] (listedAnswers.take 1)
      (.entryList 0 1 [] "timeout") (listedSession stoppingSlave).engine :=
    ⟨rfl, .cons rfl rfl .nil, by decide, .entries rfl rfl⟩
  obtain ⟨objects, whole, read, counted, _⟩ := reads _ _ answersAll
  obtain ⟨raised, after, failed, _, _, _, _, first⟩ := stops _ _ _ (.entries ..) stopsAfter
  obtain ⟨others, otherWhole, otherRead, completedEq⟩ := first _ (listedAnswers.drop 1) answersAll
  rw [read] at otherRead
  cases otherRead
  exact ⟨raised, after, objects, whole, failed, read, counted, completedEq⟩

end Discovery

end Fieldbus
