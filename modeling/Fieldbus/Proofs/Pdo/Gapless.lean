import Fieldbus.Pdo.Values
import Mathlib.Algebra.BigOperators.Group.List.Basic
import Mathlib.Algebra.Order.BigOperators.Group.List
import Mathlib.Data.Int.Order.Basic
import Mathlib.Tactic.Ring

/-!
# Gapless maps

What a layout promises of a process data map: outputs before inputs, sync managers in
ascending order, and the entries of each direction one after the other without a gap.
Bits are counted from the start of the slave's part of the image, and the first bit of
a byte is its least significant one.
-/

namespace Fieldbus

namespace MappedEntry

/-- The first bit of an entry within the part of its direction. -/
def firstBit (info : MappedEntry) : Int :=
  8 * info.byteOffset + info.bitOffset

def stopBit (info : MappedEntry) : Int :=
  info.firstBit + info.bitLength

end MappedEntry

/-- An assignment stands before another one: outputs before inputs, else by sync
manager. -/
def PdoAssignment.Precedes (first second : PdoAssignment) : Prop :=
  (first.smType = .outputs ∧ second.smType = .inputs) ∨
    (first.smType = second.smType ∧ first.sm < second.sm)

namespace PdoMap

def pdos (map : PdoMap) : List Pdo :=
  map.flatMap PdoAssignment.pdos

def entriesOf (map : PdoMap) (type : SyncManagerType) : List MappedEntry :=
  (map.filter (·.smType = type)).flatMap PdoAssignment.entries

/-- Where the last entry of one direction ends. -/
def stopOf (map : PdoMap) (type : SyncManagerType) : Int :=
  ((map.entriesOf type).getLast?.map MappedEntry.stopBit).getD 0

/-- The entries of each direction lie one after the other, numbered through, in
assignments that are in order. -/
structure Gapless (map : PdoMap) : Prop where
  ordered : map.Pairwise PdoAssignment.Precedes
  directed : ∀ assignment ∈ map, assignment.smType = .outputs ∨ assignment.smType = .inputs
  typed : ∀ assignment ∈ map, ∀ info ∈ assignment.entries, info.smType = assignment.smType
  inhabited : ∀ pdo ∈ map.pdos, pdo.entries ≠ []
  lengths : ∀ info ∈ map.entries, 0 ≤ info.bitLength
  placed : ∀ type index (inside : index < (map.entriesOf type).length),
    ((map.entriesOf type)[index]).firstBit =
      (((map.entriesOf type).take index).map MappedEntry.bitLength).sum
  offsets : ∀ info ∈ map.entries, 0 ≤ info.bitOffset ∧ info.bitOffset < 8
  entryPositions : map.entries.map MappedEntry.position = List.range map.entries.length
  pdoPositions : map.pdos.map Pdo.position = List.range map.pdos.length

variable {map before after : PdoMap} {type : SyncManagerType}

theorem entries_eq_flatMap_pdos (map : PdoMap) :
    map.entries = map.pdos.flatMap Pdo.entries := by
  rw [pdos, List.flatMap_assoc]
  rfl

@[simp]
theorem entriesOf_append (before after : PdoMap) (type : SyncManagerType) :
    entriesOf (before ++ after) type = entriesOf before type ++ entriesOf after type := by
  simp [entriesOf]

theorem entriesOf_eq_entries (same : ∀ assignment ∈ map, assignment.smType = type) :
    map.entriesOf type = map.entries := by
  rw [entriesOf, List.filter_eq_self.mpr (by simpa using same), entries]

theorem entriesOf_eq_nil {other : SyncManagerType} (different : type ≠ other)
    (same : ∀ assignment ∈ map, assignment.smType = type) : map.entriesOf other = [] := by
  have none : ∀ assignment ∈ map, assignment.smType ≠ other := by
    intro assignment listed
    rw [same assignment listed]
    exact different
  rw [entriesOf, List.filter_eq_nil_iff.mpr (by simpa using none), List.flatMap_nil]

theorem mem_entries_of_mem_entriesOf {info : MappedEntry} (member : info ∈ map.entriesOf type) :
    info ∈ map.entries := by
  obtain ⟨assignment, kept, inside⟩ := List.mem_flatMap.mp member
  exact List.mem_flatMap.mpr ⟨assignment, List.mem_of_mem_filter kept, inside⟩

theorem mem_entries_of_find? {entry : EntryIndex} {info : MappedEntry}
    (found : map.find? entry = some info) : info ∈ map.entries ∧ info.entry = entry := by
  have member : info ∈ map.entries.filter (·.entry = entry) := by
    rw [find?] at found
    cases wins : (map.entries.filter (·.entry = entry)).find? (·.smType = .outputs) with
    | some output =>
        simp only [wins, Option.orElse_some] at found
        cases found
        exact List.mem_of_find?_eq_some wins
    | none =>
        simp only [wins, Option.orElse_none] at found
        exact List.mem_of_mem_head? found
  simpa using member

theorem bits_eq_sum (map : PdoMap) (type : SyncManagerType) :
    map.bits type = ((map.entriesOf type).map MappedEntry.bitLength).sum := by
  rw [List.sum_eq_foldl, List.foldl_map]
  rfl

namespace Gapless

theorem firstBit_eq_of_append (gapless : map.Gapless) {info : MappedEntry}
    {before after : List MappedEntry} (split : map.entriesOf type = before ++ info :: after) :
    info.firstBit = (before.map MappedEntry.bitLength).sum := by
  have inside : before.length < (map.entriesOf type).length := by simp [split]
  have placed := gapless.placed type before.length inside
  simpa [split] using placed

theorem bitLength_nonneg (gapless : map.Gapless) {info : MappedEntry}
    (member : info ∈ map.entriesOf type) : 0 ≤ info.bitLength :=
  gapless.lengths info (mem_entries_of_mem_entriesOf member)

theorem sum_bitLength_nonneg (gapless : map.Gapless) {infos : List MappedEntry}
    (mapped : infos ⊆ map.entriesOf type) : 0 ≤ (infos.map MappedEntry.bitLength).sum := by
  apply List.sum_nonneg
  intro length member
  obtain ⟨info, inside, rfl⟩ := List.mem_map.mp member
  exact gapless.bitLength_nonneg (mapped inside)

/-- An entry starts after everything that is mapped before it. -/
theorem stopBit_le_firstBit (gapless : map.Gapless) {first second : Nat}
    (ordered : first < second) (inside : second < (map.entriesOf type).length) :
    ((map.entriesOf type)[first]).stopBit ≤ ((map.entriesOf type)[second]).firstBit := by
  have stops : ((map.entriesOf type)[first]).stopBit =
      (((map.entriesOf type).take (first + 1)).map MappedEntry.bitLength).sum := by
    rw [List.take_succ_eq_append_getElem (ordered.trans inside), List.map_append,
      List.sum_append, MappedEntry.stopBit, gapless.placed type first (ordered.trans inside)]
    simp
  have between : (map.entriesOf type).take second = (map.entriesOf type).take (first + 1) ++
      ((map.entriesOf type).drop (first + 1)).take (second - (first + 1)) := by
    rw [← List.take_add]
    congr 1
    omega
  have kept : ((map.entriesOf type).drop (first + 1)).take (second - (first + 1)) ⊆
      map.entriesOf type := by
    intro info taken
    exact List.mem_of_mem_drop (List.mem_of_mem_take taken)
  have more := gapless.sum_bitLength_nonneg kept
  rw [stops, gapless.placed type second inside, between, List.map_append, List.sum_append]
  omega

theorem mem_entriesOf (gapless : map.Gapless) {info : MappedEntry} (member : info ∈ map.entries) :
    info ∈ map.entriesOf info.smType := by
  obtain ⟨assignment, listed, inside⟩ := List.mem_flatMap.mp member
  have typed := gapless.typed assignment listed info inside
  refine List.mem_flatMap.mpr ⟨assignment, ?_, inside⟩
  exact List.mem_filter.mpr ⟨listed, by simpa using typed.symm⟩

theorem apart (gapless : map.Gapless) {first second : MappedEntry}
    (firstMember : first ∈ map.entriesOf type) (secondMember : second ∈ map.entriesOf type)
    (different : first ≠ second) :
    first.stopBit ≤ second.firstBit ∨ second.stopBit ≤ first.firstBit := by
  obtain ⟨firstIndex, firstInside, rfl⟩ := List.mem_iff_getElem.mp firstMember
  obtain ⟨secondIndex, secondInside, rfl⟩ := List.mem_iff_getElem.mp secondMember
  rcases Nat.lt_trichotomy firstIndex secondIndex with before | same | after
  · exact Or.inl (gapless.stopBit_le_firstBit before secondInside)
  · subst same
    exact absurd rfl different
  · exact Or.inr (gapless.stopBit_le_firstBit after firstInside)

theorem firstBit_nonneg (gapless : map.Gapless) {info : MappedEntry}
    (member : info ∈ map.entriesOf type) : 0 ≤ info.firstBit := by
  obtain ⟨before, after, split⟩ := List.append_of_mem member
  rw [gapless.firstBit_eq_of_append split]
  have kept : before ⊆ map.entriesOf type := by
    rw [split]
    exact List.subset_append_left before _
  exact gapless.sum_bitLength_nonneg kept

theorem exists_place (gapless : map.Gapless) {info : MappedEntry}
    (member : info ∈ map.entriesOf type) :
    ∃ byteOffset bitOffset bitLength : Nat, info.byteOffset = byteOffset ∧
      info.bitOffset = bitOffset ∧ bitOffset < 8 ∧ info.bitLength = bitLength := by
  have offsets := gapless.offsets info (mem_entries_of_mem_entriesOf member)
  have length := gapless.bitLength_nonneg member
  have first := gapless.firstBit_nonneg member
  rw [MappedEntry.firstBit] at first
  refine ⟨info.byteOffset.toNat, info.bitOffset.toNat, info.bitLength.toNat, ?_, ?_, ?_, ?_⟩
  · omega
  · omega
  · omega
  · omega

theorem bits_eq_stopOf (gapless : map.Gapless) (type : SyncManagerType) :
    map.bits type = map.stopOf type := by
  rw [bits_eq_sum, stopOf]
  rcases List.eq_nil_or_concat (map.entriesOf type) with empty | ⟨before, last, split⟩
  · simp [empty]
  · rw [List.concat_eq_append] at split
    have placed := gapless.firstBit_eq_of_append split
    simp [split, MappedEntry.stopBit, placed]

theorem bitSizes_eq (gapless : map.Gapless) :
    map.bitSizes = .ok (map.stopOf .outputs, map.stopOf .inputs) := by
  have known : (map.any fun assignment =>
      (decide (assignment.smType ≠ .outputs) && decide (assignment.smType ≠ .inputs)) &&
        !assignment.entries.isEmpty) = false := by
    rw [List.any_eq_false]
    intro assignment member
    rcases gapless.directed assignment member with outputs | inputs
    · simp [outputs]
    · simp [inputs]
  rw [bitSizes]
  simp only [known, Bool.false_eq_true, if_false, gapless.bits_eq_stopOf]

end Gapless

end PdoMap

end Fieldbus
