import Fieldbus.Proofs.Engine.Logged
import Fieldbus.Proofs.Pdo.Resolve

/-!
# What a dictionary adds to a layout

A dictionary labels the entries of a layout with types and names, and its objects with names.
Resolving a map with a dictionary is resolving it without one and labelling the result: both
runs ask the engine the same, place the same entries and fail alike, and differ in what they
warn of only.  Any two dictionaries are compared by way of none.
-/

namespace Fieldbus

def MappedEntry.unlabelled (info : MappedEntry) : MappedEntry :=
  { info with dataType := none, name := .text "" }

def Pdo.unlabelled (pdo : Pdo) : Pdo :=
  { pdo with name := .text "", entries := pdo.entries.map MappedEntry.unlabelled }

def PdoAssignment.unlabelled (assignment : PdoAssignment) : PdoAssignment :=
  { assignment with pdos := assignment.pdos.map Pdo.unlabelled }

/-- A map without the types and the names that a dictionary adds. -/
def PdoMap.unlabelled (map : PdoMap) : PdoMap :=
  map.map PdoAssignment.unlabelled

namespace Layout

open Fieldbus.Action

namespace Source

variable (source : Source)

def bare : Source :=
  { source with dictionary := none }

def info? (entry : EntryIndex) : Option EntryInfo :=
  source.dictionary.bind (·.entryAt? source.slave entry)

def object? (index : Int) : Option ObjectInfo :=
  source.dictionary.bind (·.findObject? source.slave index)

/-- An entry with the type and the name that the dictionary has for it. -/
def label (info : MappedEntry) : MappedEntry :=
  { info with
    dataType := (source.info? info.entry).bind EntryInfo.dataType
    name := ((source.info? info.entry).map EntryInfo.name).getD (.text "") }

def labelPdo (pdo : Pdo) : Pdo :=
  { pdo with
    name := ((source.object? pdo.index).map ObjectInfo.name).getD (.text "")
    entries := pdo.entries.map source.label }

def labelAssignment (assignment : PdoAssignment) : PdoAssignment :=
  { assignment with pdos := assignment.pdos.map source.labelPdo }

def labelMap (map : PdoMap) : PdoMap :=
  map.map source.labelAssignment

theorem unlabelled_labelPdo (pdo : Pdo) : (source.labelPdo pdo).unlabelled = pdo.unlabelled := by
  have entries : (pdo.entries.map source.label).map MappedEntry.unlabelled =
      pdo.entries.map MappedEntry.unlabelled := by
    rw [List.map_map]
    rfl
  simp only [labelPdo, Pdo.unlabelled, entries]

theorem unlabelled_labelAssignment (assignment : PdoAssignment) :
    (source.labelAssignment assignment).unlabelled = assignment.unlabelled := by
  have pdos : (assignment.pdos.map source.labelPdo).map Pdo.unlabelled =
      assignment.pdos.map Pdo.unlabelled := by
    simp only [List.map_map, Function.comp_def, unlabelled_labelPdo]
  simp only [labelAssignment, PdoAssignment.unlabelled, pdos]

theorem unlabelled_labelMap (map : PdoMap) : (source.labelMap map).unlabelled = map.unlabelled := by
  simp only [labelMap, PdoMap.unlabelled, List.map_map, Function.comp_def,
    unlabelled_labelAssignment]

theorem entries_labelAssignment (assignment : PdoAssignment) :
    (source.labelAssignment assignment).entries = assignment.entries.map source.label := by
  simp only [labelAssignment, PdoAssignment.entries, List.flatMap_map, List.map_flatMap, labelPdo]

theorem entries_labelMap (map : PdoMap) :
    (source.labelMap map).entries = map.entries.map source.label := by
  simp only [labelMap, PdoMap.entries, List.flatMap_map, List.map_flatMap,
    entries_labelAssignment]

end Source

variable {ε : Type}

/-- Sessions with the same engine; what was warned of may differ. -/
def SameEngine (left right : Session ε) : Prop :=
  left.engine = right.engine

theorem couples_warnMaybe (first second : Option Text) :
    Couples (SameEngine (ε := ε)) (fun _ _ => True) (warnMaybe first) (warnMaybe second) := by
  intro left right same
  cases first <;> cases second <;> exact .ok trivial same

/-- A dialogue does the same in sessions with the same engine. -/
theorem couples_talks {α : Type} {asks : ∀ {β : Type}, Action ε β → Prop} {throws : Fault → Prop}
    {action : Action (Session ε) α} (talks : Session.Talks asks throws action) :
    Couples SameEngine Eq action action := by
  refine talks.couples ?_ ?_
  · intro β request _
    have same : Couples Eq Eq request request := by
      rintro engine _ rfl
      cases request engine with
      | ok value after => exact .ok rfl rfl
      | error fault after => exact .error fault rfl
    exact same.within (fun _ _ known => known) fun _ _ _ _ _ known => known
  · intro notice left right same
    exact .ok rfl same

variable [Engine ε]

/-- What is read with a dictionary is what is read without one, labelled, and the cursor is the
same. -/
def Labelled {α : Type} (label : α → α) (left right : α × Cursor) : Prop :=
  left = (label right.1, right.2)

section Walks

variable (source : Source) (type : SyncManagerType)

theorem couples_readEntry (pdo : Int) (subindex : Nat) (cursor : Cursor) :
    Couples (SameEngine (ε := ε)) (Labelled source.label)
      (readEntry source type pdo subindex cursor)
      (readEntry source.bare type pdo subindex cursor) := by
  refine (couples_talks (talks_readUnsigned _ _ _ _)).bind ?_
  rintro word _ rfl
  refine (couples_warnMaybe _ _).bind ?_
  intro _ _ _
  refine (couples_warnMaybe _ _).bind ?_
  intro _ _ _
  exact .pure rfl

theorem couples_readEntries (pdo : Int) (subindices : List Nat) (cursor : Cursor) :
    Couples (SameEngine (ε := ε)) (Labelled (List.map source.label))
      (readEntries source type pdo subindices cursor)
      (readEntries source.bare type pdo subindices cursor) := by
  induction subindices generalizing cursor with
  | nil => exact .pure rfl
  | cons subindex rest ih =>
      refine (couples_readEntry source type pdo subindex cursor).bind ?_
      rintro _ ⟨mapped, placed⟩ rfl
      refine (ih placed).bind ?_
      rintro _ ⟨more, last⟩ rfl
      exact .pure rfl

omit [Engine ε] in
theorem couples_readName (index : Int) :
    Couples (SameEngine (ε := ε))
      (fun left right => left = ((source.object? index).map ObjectInfo.name).getD (.text "") ∧
        right = .text "")
      (readName source index) (readName source.bare index) := by
  intro left right same
  rw [readName, Source.object?]
  cases source.dictionary.bind (·.findObject? source.slave index) with
  | none => exact .ok ⟨rfl, rfl⟩ same
  | some object => exact .ok ⟨rfl, rfl⟩ same

theorem couples_readPdo (sm subindex : Nat) (cursor : Cursor) :
    Couples (SameEngine (ε := ε)) (Labelled (Option.map source.labelPdo))
      (readPdo source sm type subindex cursor) (readPdo source.bare sm type subindex cursor) := by
  refine (couples_talks (talks_readUnsigned _ _ _ _)).bind ?_
  rintro index _ rfl
  refine (couples_talks (talks_readUnsigned _ _ _ _)).bind ?_
  rintro count _ rfl
  refine (couples_readEntries source type _ _ _).bind ?_
  rintro _ ⟨entries, placed⟩ rfl
  dsimp only
  cases entries with
  | nil => exact .pure rfl
  | cons first rest =>
      refine (couples_readName source index).bind ?_
      rintro _ _ ⟨rfl, rfl⟩
      exact .pure rfl

theorem couples_readPdos (sm : Nat) (subindices : List Nat) (cursor : Cursor) :
    Couples (SameEngine (ε := ε)) (Labelled (List.map source.labelPdo))
      (readPdos source sm type subindices cursor)
      (readPdos source.bare sm type subindices cursor) := by
  induction subindices generalizing cursor with
  | nil => exact .pure rfl
  | cons subindex rest ih =>
      refine (couples_readPdo source type sm subindex cursor).bind ?_
      rintro _ ⟨pdo, placed⟩ rfl
      refine (ih placed).bind ?_
      rintro _ ⟨more, last⟩ rfl
      apply Couples.pure
      rw [Labelled, List.map_append, Option.toList_map]

theorem couples_readAssignment (sm : Nat) (cursor : Cursor) :
    Couples (SameEngine (ε := ε)) (Labelled source.labelAssignment)
      (readAssignment source sm type cursor) (readAssignment source.bare sm type cursor) := by
  refine (couples_talks (talks_readUnsigned _ _ _ _)).bind ?_
  rintro count _ rfl
  refine (couples_readPdos source type sm _ cursor).bind ?_
  rintro _ ⟨pdos, placed⟩ rfl
  exact .pure rfl

theorem couples_readAssignments (sms : List Nat) (cursor : Cursor) :
    Couples (SameEngine (ε := ε)) (Labelled (List.map source.labelAssignment))
      (readAssignments source type sms cursor) (readAssignments source.bare type sms cursor) := by
  induction sms generalizing cursor with
  | nil => exact .pure rfl
  | cons sm rest ih =>
      refine (couples_readAssignment source type sm cursor).bind ?_
      rintro _ ⟨assignment, placed⟩ rfl
      refine (ih placed).bind ?_
      rintro _ ⟨more, last⟩ rfl
      exact .pure rfl

end Walks

/-- Resolving with a dictionary is resolving without one, and labelling the map. -/
theorem couples_resolve (dictionary : Option ObjectDictionary) (slave : Int) (timeout : Number) :
    Couples (SameEngine (ε := ε))
      (fun left right => left = Source.labelMap ⟨dictionary, slave, timeout⟩ right)
      (resolve dictionary slave timeout) (resolve none slave timeout) := by
  refine (couples_talks (talks_readUnsigned _ _ _ _)).bind ?_
  rintro count _ rfl
  split
  · refine Couples.bind (couples_talks (.report _ :
      Session.Talks (Engine.Uploads slave) Session.anyFault _)) ?_
    intro _ _ _
    exact .pure rfl
  · refine Couples.bind (couples_talks (talks_lastSyncManager _ _ :
      Session.Talks (Engine.Uploads slave) Session.anyFault _)) ?_
    rintro last _ rfl
    refine (couples_talks (talks_readTypes _ _ _)).bind ?_
    rintro types _ rfl
    refine (couples_readAssignments ⟨dictionary, slave, timeout⟩ _ _ _).bind ?_
    rintro _ ⟨outputs, placed⟩ rfl
    refine (couples_readAssignments ⟨dictionary, slave, timeout⟩ _ _ _).bind ?_
    rintro _ ⟨inputs, last⟩ rfl
    apply Couples.pure
    rw [Source.labelMap, List.map_append]

theorem outcome_resolve (dictionary : Option ObjectDictionary) (slave : Int) (timeout : Number)
    (session : Session ε) :
    (final (resolve dictionary slave timeout session)).engine =
        (final (resolve none slave timeout session)).engine ∧
      outcome (resolve dictionary slave timeout session) =
        (outcome (resolve none slave timeout session)).map
          (Source.labelMap ⟨dictionary, slave, timeout⟩) := by
  have agree := couples_resolve dictionary slave timeout session session rfl
  generalize resolve dictionary slave timeout session = left at agree ⊢
  generalize resolve none slave timeout session = right at agree ⊢
  cases agree with
  | ok labelled same => exact ⟨same, congrArg Except.ok labelled⟩
  | error fault same => exact ⟨same, rfl⟩

theorem unlabelled_resolve (dictionary : Option ObjectDictionary) (slave : Int)
    (timeout : Number) (session : Session ε) :
    (outcome (resolve dictionary slave timeout session)).map PdoMap.unlabelled =
      (outcome (resolve none slave timeout session)).map PdoMap.unlabelled := by
  rw [(outcome_resolve dictionary slave timeout session).2]
  cases outcome (resolve none slave timeout session) with
  | ok map => exact congrArg Except.ok (Source.unlabelled_labelMap _ map)
  | error fault => rfl

/-- Resolving with two dictionaries asks the engine the same uploads and leaves it the same, and
fails alike or gives maps that differ in labels only; a map is the layout of what the slave
answered, and the label of an entry is what the dictionary says of it. -/
theorem resolve_any_dictionary (first second : Option ObjectDictionary) (slave : Int)
    (timeout : Number) (session : Session (Logged ε)) :
    (∃ written, (∀ event ∈ written, event.IsUploadOf slave) ∧
        (final (resolve first slave timeout session)).events = session.events ++ written ∧
        (final (resolve second slave timeout session)).events = session.events ++ written) ∧
      (final (resolve first slave timeout session)).engine =
        (final (resolve second slave timeout session)).engine ∧
      (outcome (resolve first slave timeout session)).map PdoMap.unlabelled =
        (outcome (resolve second slave timeout session)).map PdoMap.unlabelled ∧
      ∀ map, outcome (resolve first slave timeout session) = .ok map →
        (∃ transcript count, Transcript.Leads slave timeout session.engine transcript
            (final (resolve first slave timeout session)).engine ∧
          LayoutOf transcript count map) ∧
        ∀ info ∈ map.entries,
          info.dataType = (first.bind (·.entryAt? slave info.entry)).bind EntryInfo.dataType ∧
          info.name =
            ((first.bind (·.entryAt? slave info.entry)).map EntryInfo.name).getD (.text "") := by
  obtain ⟨sameFirst, labels⟩ := outcome_resolve first slave timeout session
  obtain ⟨sameSecond, _⟩ := outcome_resolve second slave timeout session
  have same := sameFirst.trans sameSecond.symm
  refine ⟨?_, same, ?_, ?_⟩
  · obtain ⟨written, wrote, _, uploads⟩ := tells_uploads first slave timeout session trivial
    refine ⟨written, uploads, wrote, ?_⟩
    rw [← wrote]
    exact congrArg Logged.events same.symm
  · exact (unlabelled_resolve first slave timeout session).trans
      (unlabelled_resolve second slave timeout session).symm
  · intro map resolved
    obtain ⟨after, ran⟩ := exists_ok_of_outcome resolved
    obtain ⟨transcript, count, outputs, inputs, leads, rfl, laid⟩ := resolve_ok ran
    refine ⟨⟨transcript, count, by rwa [ran], laid.layoutOf⟩, fun info member => ?_⟩
    cases plain : outcome (resolve none slave timeout session) with
    | error fault =>
        rw [labels, plain] at resolved
        cases resolved
    | ok other =>
        rw [labels, plain] at resolved
        have labelled := Except.ok.inj resolved
        rw [← labelled, Source.entries_labelMap] at member
        obtain ⟨bare, _, rfl⟩ := List.mem_map.mp member
        exact ⟨rfl, rfl⟩

end Layout

end Fieldbus
