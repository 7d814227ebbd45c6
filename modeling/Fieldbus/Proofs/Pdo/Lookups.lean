import Fieldbus.Pdo.Layout

/-!
# What a layout looks up

Resolving the process data map of a slave looks up objects of that slave only, so that
dictionaries that say the same of the slave give the same map.
-/

namespace Fieldbus

namespace Layout

variable {ε : Type} [Engine ε]

/-- Two sources read the same slave and find the same objects of it. -/
structure Source.Alike (first second : Source) : Prop where
  slave : first.slave = second.slave
  timeout : first.timeout = second.timeout
  object : ∀ index, first.dictionary.bind (·.findObject? first.slave index) =
    second.dictionary.bind (·.findObject? second.slave index)

variable {first second : Source} (type : SyncManagerType)

theorem Source.Alike.entry (alike : first.Alike second) (entry : EntryIndex) :
    first.dictionary.bind (·.entryAt? first.slave entry) =
      second.dictionary.bind (·.entryAt? second.slave entry) := by
  have entryAt (source : Source) : source.dictionary.bind (·.entryAt? source.slave entry) =
      (source.dictionary.bind (·.findObject? source.slave entry.index)).bind
        (·.entryAt? entry.subindex) := by
    rw [Option.bind_assoc]
    rfl
  rw [entryAt, entryAt, alike.object]

variable (alike : first.Alike second)

include alike

theorem readEntry_congr (pdo : Int) (subindex : Nat) (cursor : Cursor) :
    readEntry (ε := ε) first type pdo subindex cursor =
      readEntry second type pdo subindex cursor := by
  unfold readEntry
  simp only [alike.entry]
  simp only [alike.slave, alike.timeout]

theorem readEntries_congr (pdo : Int) (subindices : List Nat) (cursor : Cursor) :
    readEntries (ε := ε) first type pdo subindices cursor =
      readEntries second type pdo subindices cursor := by
  induction subindices generalizing cursor with
  | nil => rfl
  | cons subindex rest ih => simp only [readEntries, readEntry_congr type alike, ih]

omit [Engine ε] in
theorem readName_congr (pdo : Int) :
    readName (ε := ε) first pdo = readName second pdo := by
  unfold readName
  rw [alike.object, alike.slave]

theorem readPdo_congr (sm subindex : Nat) (cursor : Cursor) :
    readPdo (ε := ε) first sm type subindex cursor = readPdo second sm type subindex cursor := by
  unfold readPdo
  simp only [readEntries_congr type alike, readName_congr alike, alike.slave, alike.timeout]

theorem readPdos_congr (sm : Nat) (subindices : List Nat) (cursor : Cursor) :
    readPdos (ε := ε) first sm type subindices cursor =
      readPdos second sm type subindices cursor := by
  induction subindices generalizing cursor with
  | nil => rfl
  | cons subindex rest ih => simp only [readPdos, readPdo_congr type alike, ih]

theorem readAssignment_congr (sm : Nat) (cursor : Cursor) :
    readAssignment (ε := ε) first sm type cursor = readAssignment second sm type cursor := by
  unfold readAssignment
  simp only [readPdos_congr type alike, alike.slave, alike.timeout]

theorem readAssignments_congr (sms : List Nat) (cursor : Cursor) :
    readAssignments (ε := ε) first type sms cursor = readAssignments second type sms cursor := by
  induction sms generalizing cursor with
  | nil => rfl
  | cons sm rest ih => simp only [readAssignments, readAssignment_congr type alike, ih]

omit alike in
/-- The map of a slave depends on what the dictionary says of that slave only. -/
theorem resolve_congr {dictionary other : ObjectDictionary} {slave : Int}
    (same : dictionary.get? slave = other.get? slave) (timeout : Number) :
    resolve (ε := ε) (some dictionary) slave timeout = resolve (some other) slave timeout := by
  have alike : Source.Alike ⟨some dictionary, slave, timeout⟩ ⟨some other, slave, timeout⟩ := by
    refine ⟨rfl, rfl, ?_⟩
    intro index
    simp only [Option.bind_some, ObjectDictionary.findObject?, same]
  unfold resolve
  simp only [readAssignments_congr _ alike]

end Layout

end Fieldbus
