import Fieldbus.Proofs.Dictionary.Completed
import Fieldbus.Proofs.Wording
import Mathlib.Data.Int.Range

/-!
# Look-ups in discovered dictionaries

A dictionary whose objects were discovered is looked up in several ways: an address may have an
entry or not, or it is asked for and refused, or all entries of an object are listed.  All of them
agree on the last object with the index, which has an entry for each subindex up to its last one.
-/

namespace Fieldbus

open Discovery

/-- Objects that discovery read from a slave: all of them, or those before the first request that
failed. -/
inductive Discovered : List ObjectInfo → Prop
  | whole {ε : Type} [Engine ε] {slave : Int} {session after : Session ε}
      {objects : List ObjectInfo} (read : readObjects slave session = .ok objects after) :
      Discovered objects
  | completed {ε : Type} [Engine ε] {slave : Int} {session after : Session ε} {listed : ε}
      {indices : List Int} {fault : Fault}
      (listing : Engine.objectList slave session.engine = .ok indices listed)
      (failed : readObjects slave session = .error fault after) : Discovered fault.completed

theorem Discovered.exists_answers {objects : List ObjectInfo} (discovered : Discovered objects) :
    ∃ answers, objects = objectsFrom 0 answers := by
  cases discovered with
  | @whole ε _ slave session after objects read =>
      obtain ⟨indices, between, listing, _⟩ := Action.bind_eq_ok_iff.mp read
      obtain ⟨listed, listing, _⟩ := Session.ask_eq_ok_iff.mp listing
      rcases answersAll_or_stopsAfter listing with ⟨answers, answered⟩ | ⟨answers, fault, stops⟩
      · obtain ⟨_, same⟩ := answered.readObjects
        cases read.symm.trans same
        exact ⟨answers, rfl⟩
      · obtain ⟨_, failed⟩ := stops.readObjects
        cases read.symm.trans failed
  | @completed ε _ slave session after listed indices fault listing failed =>
      rcases answersAll_or_stopsAfter listing with ⟨answers, answered⟩ | ⟨answers, cause, stops⟩
      · obtain ⟨_, read⟩ := answered.readObjects
        cases failed.symm.trans read
      · obtain ⟨_, same⟩ := stops.readObjects
        cases failed.symm.trans same
        rcases completed_withCompleted (objectsFrom 0 answers) cause with kept | none
        · exact ⟨answers, kept⟩
        · exact ⟨[], none⟩

theorem Discovered.exists_shows {objects : List ObjectInfo} {object : ObjectInfo}
    (discovered : Discovered objects) (member : object ∈ objects) :
    ∃ place answer, Shows place answer object := by
  obtain ⟨answers, rfl⟩ := discovered.exists_answers
  obtain ⟨place, found⟩ := List.mem_iff_getElem?.mp member
  rw [getElem?_objectsFrom, Nat.zero_add] at found
  obtain ⟨answer, _, rfl⟩ := Option.map_eq_some_iff.mp found
  exact ⟨place, answer, shows_object place answer⟩

namespace Discovery.Shows

variable {place : Nat} {answer : Answer} {object : ObjectInfo}
  (isShown : Shows place answer object)

include isShown

theorem length_entries : object.entries.length = (object.maxSubindex + 1).toNat := by
  have lengths := congrArg List.length isShown.addresses
  simpa using lengths

theorem isSome_entryAt?_iff (subindex : Int) :
    (object.entryAt? subindex).isSome ↔ 0 ≤ subindex ∧ subindex ≤ object.maxSubindex := by
  have lengthEq := isShown.length_entries
  rw [ObjectInfo.entryAt?]
  split
  · have inside : object.entries[subindex.toNat]?.isSome ↔
        subindex.toNat < object.entries.length := by simp
    rw [inside]
    omega
  · simp only [Option.isSome_none, Bool.false_eq_true, false_iff]
    omega

theorem entry_eq {subindex : Int} {info : EntryInfo}
    (found : object.entryAt? subindex = some info) :
    info.entry = ⟨object.index, subindex⟩ := by
  rw [ObjectInfo.entryAt?] at found
  split at found
  · have addressed := congrArg (·[subindex.toNat]?) isShown.addresses
    obtain ⟨inside, _⟩ := List.getElem?_eq_some_iff.mp found
    rw [isShown.length_entries] at inside
    simp only [List.getElem?_map, found, Option.map_some, List.getElem?_range inside,
      Option.some.injEq] at addressed
    rw [addressed, Int.toNat_of_nonneg (by assumption)]
  · cases found

/-- The entries from a subindex on are those that are found one after the other. -/
theorem map_entryAt? (first : Nat) :
    (Int.range first (object.maxSubindex + 1)).map object.entryAt? =
      (object.entries.drop first).map some := by
  have lengthEq := isShown.length_entries
  apply List.ext_getElem
  · simp only [Int.range, List.length_map, List.length_range, List.length_drop, lengthEq]
    omega
  · intro index before inside
    simp only [List.length_map, List.length_drop] at inside
    have nonneg : (0 : Int) ≤ first + index := by omega
    have reached : ((first : Int) + index).toNat = first + index := by omega
    simp only [Int.range, List.getElem_map, List.getElem_range, List.getElem_drop,
      ObjectInfo.entryAt?, if_pos nonneg, reached]
    exact List.getElem?_eq_getElem (by omega)

end Discovery.Shows

namespace ObjectDictionary

variable {dictionary : ObjectDictionary} {slave index : Int} {object : ObjectInfo}

/-- The object is the last one with the index that a slave lists. -/
def IsLast (dictionary : ObjectDictionary) (slave index : Int) (object : ObjectInfo) : Prop :=
  ∃ before later, dictionary.get? slave = some (before ++ object :: later) ∧
    object.index = index ∧ ∀ other ∈ later, other.index ≠ index

theorem findObject?_eq_some_iff :
    dictionary.findObject? slave index = some object ↔ dictionary.IsLast slave index object := by
  rw [findObject?, Option.bind_eq_some_iff, IsLast]
  constructor
  · rintro ⟨objects, listed, found⟩
    obtain ⟨indexed, later, before, split, others⟩ := List.find?_eq_some_iff_append.mp found
    refine ⟨before.reverse, later.reverse, ?_, by simpa using indexed, ?_⟩
    · rw [listed, ← List.reverse_reverse objects, split]
      simp
    · intro other member
      simpa using others other (List.mem_reverse.mp member)
  · rintro ⟨before, later, listed, indexed, others⟩
    refine ⟨_, listed, List.find?_eq_some_iff_append.mpr ?_⟩
    refine ⟨by simpa using indexed, later.reverse, before.reverse, by simp, ?_⟩
    intro other member
    simpa using others other (List.mem_reverse.mp member)

theorem entryAt?_of_isLast (isLast : dictionary.IsLast slave index object) (subindex : Int) :
    dictionary.entryAt? slave ⟨index, subindex⟩ = object.entryAt? subindex := by
  rw [entryAt?, findObject?_eq_some_iff.mpr isLast, Option.bind_some]

/-- What is found at an address is found in the last object with the index. -/
theorem entryAt?_eq_some_iff {subindex : Int} {info : EntryInfo} :
    dictionary.entryAt? slave ⟨index, subindex⟩ = some info ↔
      ∃ object, dictionary.IsLast slave index object ∧ object.entryAt? subindex = some info := by
  simp only [entryAt?, Option.bind_eq_some_iff, findObject?_eq_some_iff]

theorem entry_eq_ok_iff {entry : EntryIndex} {info : EntryInfo} :
    dictionary.entry slave entry = .ok info ↔ dictionary.entryAt? slave entry = some info := by
  rw [ObjectDictionary.entry]
  cases listed : dictionary.get? slave with
  | none => simp [entryAt?, findObject?, listed]
  | some objects => cases dictionary.entryAt? slave entry <;> simp

theorem entry_eq_error_iff {entry : EntryIndex} {fault : Fault} :
    dictionary.entry slave entry = .error fault ↔
      fault = .slaveNotFound slave ∧ dictionary.get? slave = none ∨
        fault = .entryNotFound slave entry ∧ (dictionary.get? slave).isSome ∧
          dictionary.entryAt? slave entry = none := by
  rw [ObjectDictionary.entry]
  cases dictionary.get? slave with
  | none => simp [eq_comm]
  | some objects => cases dictionary.entryAt? slave entry <;> simp [eq_comm]

/-- Listing the entries of an object leaves out the first one, unless it is asked for or the object
has no other. -/
theorem entries_of_isLast (isLast : dictionary.IsLast slave index object) (includeFirst : Bool) :
    dictionary.entries slave index includeFirst =
      .ok (object.entries.drop (if includeFirst ∨ object.maxSubindex = 0 then 0 else 1)) := by
  have found := findObject?_eq_some_iff.mpr isLast
  obtain ⟨before, later, listed, _⟩ := isLast
  have known : dictionary.object slave index = .ok object := by
    rw [ObjectDictionary.object, listed, found]
  rw [ObjectDictionary.entries, known]
  by_cases whole : includeFirst ∨ object.maxSubindex = 0
  · simp [Bind.bind, Except.bind, pure, Except.pure, whole]
  · simp [Bind.bind, Except.bind, pure, Except.pure, whole]

theorem findObject?_eq_none_iff :
    dictionary.findObject? slave index = none ↔
      ∀ object, ¬ dictionary.IsLast slave index object := by
  simp only [Option.eq_none_iff_forall_ne_some, ne_eq, findObject?_eq_some_iff]

theorem entries_eq_error_iff {includeFirst : Bool} {fault : Fault} :
    dictionary.entries slave index includeFirst = .error fault ↔
      fault = .slaveNotFound slave ∧ dictionary.get? slave = none ∨
        fault = .indexNotFound slave index ∧ (dictionary.get? slave).isSome ∧
          ∀ object, ¬ dictionary.IsLast slave index object := by
  rw [ObjectDictionary.entries, ObjectDictionary.object, ← findObject?_eq_none_iff]
  cases dictionary.get? slave with
  | none => simp [Bind.bind, Except.bind, eq_comm]
  | some objects =>
      cases dictionary.findObject? slave index with
      | none => simp [Bind.bind, Except.bind, eq_comm]
      | some object => simp [Bind.bind, Except.bind, pure, Except.pure]

/-- A look-up that fails names the slave and no other number in decimal. -/
theorem raised_of_lookup_error {limits : WritingLimits} {entry : EntryIndex} {includeFirst : Bool}
    {fault : Fault} (allowed : limits.allows slave = true)
    (failed : dictionary.entry slave entry = .error fault ∨
      dictionary.entries slave index includeFirst = .error fault) :
    fault.raised limits = fault := by
  apply Fault.raised_of_none
  rw [entry_eq_error_iff, entries_eq_error_iff] at failed
  rcases failed with (⟨rfl, _⟩ | ⟨rfl, _⟩) | (⟨rfl, _⟩ | ⟨rfl, _⟩) <;>
    simp [Fault.obstacle?_eq_none_iff, Fault.numbers, Fault.payload?, allowed]

/-- In a dictionary whose objects were discovered, all look-ups of an index tell of the last object
with it.  There is an entry at each subindex from 0 to the last one of the object and at no other;
it has the address that was looked up and stands in that slot.  Asking for it gives the same or the
fault that fits, and listing the entries gives those at the subindices one after the other or fails
where there is no such object.  These faults surface as they are if the number of the slave can be
written. -/
theorem lookups_agree
    (discovered : ∀ slave objects, dictionary.get? slave = some objects → Discovered objects)
    (slave index : Int) :
    (∀ subindex, (dictionary.entryAt? slave ⟨index, subindex⟩).isSome ↔
      ∃ object, dictionary.IsLast slave index object ∧
        0 ≤ subindex ∧ subindex ≤ object.maxSubindex) ∧
    (∀ subindex info, dictionary.entryAt? slave ⟨index, subindex⟩ = some info →
      info.entry = ⟨index, subindex⟩ ∧
        ∃ object, dictionary.IsLast slave index object ∧
          object.entries[subindex.toNat]? = some info) ∧
    (∀ subindex info, dictionary.entry slave ⟨index, subindex⟩ = .ok info ↔
      dictionary.entryAt? slave ⟨index, subindex⟩ = some info) ∧
    (∀ subindex fault, dictionary.entry slave ⟨index, subindex⟩ = .error fault ↔
      fault = .slaveNotFound slave ∧ dictionary.get? slave = none ∨
        fault = .entryNotFound slave ⟨index, subindex⟩ ∧ (dictionary.get? slave).isSome ∧
          dictionary.entryAt? slave ⟨index, subindex⟩ = none) ∧
    (∀ object includeFirst, dictionary.IsLast slave index object →
      ∃ infos, dictionary.entries slave index includeFirst = .ok infos ∧
        infos.map some =
          (Int.range (if includeFirst ∨ object.maxSubindex = 0 then 0 else 1)
            (object.maxSubindex + 1)).map fun subindex =>
              dictionary.entryAt? slave ⟨index, subindex⟩) ∧
    (∀ includeFirst fault, dictionary.entries slave index includeFirst = .error fault ↔
      fault = .slaveNotFound slave ∧ dictionary.get? slave = none ∨
        fault = .indexNotFound slave index ∧ (dictionary.get? slave).isSome ∧
          ∀ object, ¬ dictionary.IsLast slave index object) ∧
    ∀ limits subindex includeFirst fault, limits.allows slave = true →
      (dictionary.entry slave ⟨index, subindex⟩ = .error fault ∨
        dictionary.entries slave index includeFirst = .error fault) →
      fault.raised limits = fault := by
  have isShown {object : ObjectInfo} (isLast : dictionary.IsLast slave index object) :
      ∃ place answer, Shows place answer object := by
    obtain ⟨before, later, listed, _⟩ := isLast
    exact (discovered slave _ listed).exists_shows (by simp)
  refine ⟨?_, ?_, fun _ _ => entry_eq_ok_iff, fun _ _ => entry_eq_error_iff, ?_,
    fun _ _ => entries_eq_error_iff, fun _ _ _ _ => raised_of_lookup_error⟩
  · intro subindex
    rw [Option.isSome_iff_exists]
    simp only [entryAt?_eq_some_iff]
    constructor
    · rintro ⟨info, object, isLast, found⟩
      obtain ⟨_, _, shown⟩ := isShown isLast
      refine ⟨object, isLast, (shown.isSome_entryAt?_iff subindex).mp ?_⟩
      exact Option.isSome_of_eq_some found
    · rintro ⟨object, isLast, bounds⟩
      obtain ⟨_, _, shown⟩ := isShown isLast
      obtain ⟨info, found⟩ :=
        Option.isSome_iff_exists.mp ((shown.isSome_entryAt?_iff subindex).mpr bounds)
      exact ⟨info, object, isLast, found⟩
  · intro subindex info found
    obtain ⟨object, isLast, held⟩ := entryAt?_eq_some_iff.mp found
    obtain ⟨_, _, shown⟩ := isShown isLast
    have indexed : object.index = index := by
      obtain ⟨_, _, _, indexed, _⟩ := isLast
      exact indexed
    refine ⟨indexed ▸ shown.entry_eq held, object, isLast, ?_⟩
    rw [ObjectInfo.entryAt?] at held
    split at held
    · exact held
    · cases held
  · intro object includeFirst isLast
    obtain ⟨_, _, shown⟩ := isShown isLast
    refine ⟨_, entries_of_isLast isLast includeFirst, ?_⟩
    simp only [entryAt?_of_isLast isLast]
    rw [← shown.map_entryAt?]
    split
    · rfl
    · rfl

/-- A slave that lists one index twice, first with one entry more and then with two. -/
def repeatingSlave : SimulatedSlave :=
  { SimulatedSlave.plain with
    objects := [
      ⟨0x2000, 5, 9, some 1, .text "", [⟨5, 8, 7, .text ""⟩, ⟨6, 16, 7, .text ""⟩], 0, 0⟩,
      ⟨0x2000, 5, 9, some 2, .text "", [⟨5, 8, 7, .text ""⟩, ⟨7, 32, 7, .text ""⟩], 0, 0⟩] }

def repeatingAnswers : List Answer :=
  [⟨⟨0x2000, 5, 9, some 1, .text ""⟩, [⟨5, 8, 7, .text ""⟩, ⟨6, 16, 7, .text ""⟩]⟩,
    ⟨⟨0x2000, 5, 9, some 2, .text ""⟩, [⟨5, 8, 7, .text ""⟩, ⟨7, 32, 7, .text ""⟩]⟩]

def repeatingDictionary : ObjectDictionary :=
  ⟨[(0, objectsFrom 0 repeatingAnswers)]⟩

/-- The second object is looked up, up to its last subindex. -/
theorem lookups_agree_repeatingDictionary :
    (repeatingDictionary.entryAt? 0 ⟨0x2000, 2⟩).isSome ∧
      ¬ (repeatingDictionary.entryAt? 0 ⟨0x2000, -1⟩).isSome ∧
      ∃ infos, repeatingDictionary.entries 0 0x2000 false = .ok infos ∧
        infos.map some = [repeatingDictionary.entryAt? 0 ⟨0x2000, 1⟩,
          repeatingDictionary.entryAt? 0 ⟨0x2000, 2⟩] := by
  have answered : AnswersAll 0 [0x2000, 0x2000] repeatingAnswers
      (listedSession repeatingSlave).engine :=
    ⟨rfl, .cons rfl rfl (.cons rfl rfl .nil), rfl⟩
  have discovered : ∀ slave objects, repeatingDictionary.get? slave = some objects →
      Discovered objects := by
    intro slave objects listed
    obtain ⟨after, read⟩ := answered.readObjects
    rw [ObjectDictionary.get?, repeatingDictionary, Table.get?] at listed
    split at listed
    · cases listed
      exact .whole read
    · cases listed
  have isLast : repeatingDictionary.IsLast 0 0x2000 (repeatingAnswers[1].object 1) :=
    ⟨[repeatingAnswers[0].object 0], [], rfl, rfl, by simp⟩
  obtain ⟨isSome_iff, _, _, _, listing, _⟩ := lookups_agree discovered 0 0x2000
  refine ⟨(isSome_iff 2).mpr ⟨_, isLast, by decide, by decide⟩, ?_, listing _ false isLast⟩
  rw [isSome_iff]
  rintro ⟨_, _, nonneg, _⟩
  exact absurd nonneg (by decide)

end ObjectDictionary

end Fieldbus
