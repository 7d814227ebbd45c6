import Fieldbus.Proofs.Value.Checks
import Mathlib.Data.List.Basic

/-!
# Reading a map

A read goes through the entries of a map in order.  An entry that is neither padding nor empty, in
an assignment to outputs or inputs, gives a value or a warning.  Which of the two, and what it
says, is settled by the bytes of that entry alone.  A read fails only if it would have to word a
warning with a number of more digits than a text can hold.
-/

namespace Fieldbus

/-- The buffer of a direction. -/
def SyncManagerType.buffer? (inputs outputs : Bytes) : SyncManagerType → Option Bytes
  | .outputs => some outputs
  | .inputs => some inputs
  | _ => none

theorem PdoAssignment.buffer?_eq (inputs outputs : Bytes) (assignment : PdoAssignment) :
    assignment.buffer? inputs outputs = assignment.smType.buffer? inputs outputs := by
  rw [buffer?]
  cases assignment.smType <;> rfl

namespace MappedEntry

/-- Neither the offsets nor the length of the entry are negative. -/
structure IsNonnegative (info : MappedEntry) : Prop where
  byteOffset : 0 ≤ info.byteOffset
  bitOffset : 0 ≤ info.bitOffset
  bitLength : 0 ≤ info.bitLength

/-- Two buffers hold the same bytes where the entry lies, or both hold none. -/
def AgreeOn (info : MappedEntry) (first second : Bytes) : Prop :=
  ∀ index : Nat, info.byteOffset ≤ index → (index : Int) < info.byteOffset + info.byteCount →
    first[index]? = second[index]?

/-- What a read makes of an entry in an assignment of a type: it passes over it, decodes it or
fails to. -/
def outcome? (inputs outputs : Bytes) (type : SyncManagerType) (info : MappedEntry) :
    Option (Except CodecFault Value) :=
  if info.entry.index ≠ 0 ∧ 0 < info.bitLength then
    (type.buffer? inputs outputs).map info.decode
  else none

variable {info : MappedEntry} {type : SyncManagerType} {first second : Bytes}
  {inputs outputs otherInputs otherOutputs : Bytes}

theorem hasValue_iff (length : 0 ≤ info.bitLength) :
    info.hasValue = true ↔ info.entry.index ≠ 0 ∧ 0 < info.bitLength := by
  simp [hasValue, isPadding]
  omega

theorem window_congr (nonnegative : info.IsNonnegative) (agree : info.AgreeOn first second) :
    info.window first = info.window second := by
  obtain ⟨start, startEq⟩ := Int.eq_ofNat_of_zero_le nonnegative.byteOffset
  have positive : 0 ≤ info.byteCount := by
    have length := nonnegative.bitLength
    rw [byteCount, Fieldbus.byteCount]
    omega
  obtain ⟨size, sizeEq⟩ := Int.eq_ofNat_of_zero_le positive
  apply List.ext_getElem?
  intro index
  rw [window, window, startEq, sizeEq, ← Int.natCast_add, Bytes.getElem?_slice_ofNat,
    Bytes.getElem?_slice_ofNat]
  by_cases within : start + index < start + size
  · rw [if_pos within, if_pos within]
    apply agree
    · omega
    · omega
  · rw [if_neg within, if_neg within]

theorem outcome?_congr (nonnegative : info.IsNonnegative)
    (agree : ∀ buffer other, type.buffer? inputs outputs = some buffer →
      type.buffer? otherInputs otherOutputs = some other → info.AgreeOn buffer other) :
    info.outcome? inputs outputs type = info.outcome? otherInputs otherOutputs type := by
  have same (buffer other : Bytes) (alike : info.AgreeOn buffer other) :
      info.decode buffer = info.decode other := by
    rw [decode, decode, window_congr nonnegative alike]
  rw [outcome?, outcome?]
  cases type with
  | outputs => simp [SyncManagerType.buffer?, same outputs otherOutputs (agree _ _ rfl rfl)]
  | inputs => simp [SyncManagerType.buffer?, same inputs otherInputs (agree _ _ rfl rfl)]
  | _ => rfl

/-- The entries that a read passes over are padding, empty or in no buffer. -/
theorem outcome?_eq_none_iff : info.outcome? inputs outputs type = none ↔
    info.entry.index = 0 ∨ info.bitLength ≤ 0 ∨ (type ≠ .outputs ∧ type ≠ .inputs) := by
  cases type <;> simp [outcome?, SyncManagerType.buffer?] <;> grind

end MappedEntry

namespace PdoMap

/-- All entries in order, each with the type of its assignment. -/
def mappings (map : PdoMap) : List (SyncManagerType × MappedEntry) :=
  map.flatMap fun assignment => assignment.entries.map (assignment.smType, ·)

/-- The values and the warnings that a read gives for a list of entries. -/
inductive Reads (slave : Int) (inputs outputs : Bytes) :
    List (SyncManagerType × MappedEntry) → List (EntryIndex × Value) → List Notice → Prop
  | nil : Reads slave inputs outputs [] [] []
  | passed {type : SyncManagerType} {info : MappedEntry} {rest values notices}
      (ignored : info.outcome? inputs outputs type = none)
      (more : Reads slave inputs outputs rest values notices) :
      Reads slave inputs outputs ((type, info) :: rest) values notices
  | value {type : SyncManagerType} {info : MappedEntry} {value : Value} {rest values notices}
      (decoded : info.outcome? inputs outputs type = some (.ok value))
      (more : Reads slave inputs outputs rest values notices) :
      Reads slave inputs outputs ((type, info) :: rest) ((info.entry, value) :: values) notices
  | warning {type : SyncManagerType} {info : MappedEntry} {fault : CodecFault}
      {rest values notices} (failed : info.outcome? inputs outputs type = some (.error fault))
      (more : Reads slave inputs outputs rest values notices) :
      Reads slave inputs outputs ((type, info) :: rest) values
        (info.skipNotice slave fault :: notices)

variable {map : PdoMap} {slave : Int} {inputs outputs : Bytes}

theorem reads_filterMap (slave : Int) (inputs outputs : Bytes)
    (mappings : List (SyncManagerType × MappedEntry)) :
    let decoded : List Decoded := mappings.filterMap fun mapping =>
      (mapping.2.outcome? inputs outputs mapping.1).map (mapping.2, ·)
    Reads slave inputs outputs mappings (decoded.filterMap Decoded.value?)
      (decoded.filterMap (Decoded.notice? slave)) := by
  induction mappings with
  | nil => exact .nil
  | cons mapping rest ih =>
      obtain ⟨type, info⟩ := mapping
      cases outcome : info.outcome? inputs outputs type with
      | none => simpa [outcome] using Reads.passed outcome ih
      | some result =>
          cases result with
          | ok value =>
              simpa [outcome, List.filterMap_cons, Decoded.value?, Decoded.notice?]
                using Reads.value outcome ih
          | error fault =>
              simpa [outcome, List.filterMap_cons, Decoded.value?, Decoded.notice?]
                using Reads.warning outcome ih

theorem filterMap_outcome? {entries : List MappedEntry} {type : SyncManagerType} {buffer : Bytes}
    (lengths : ∀ info ∈ entries, 0 ≤ info.bitLength)
    (holds : type.buffer? inputs outputs = some buffer) :
    (entries.filterMap fun info => (info.outcome? inputs outputs type).map (info, ·)) =
      (entries.filter MappedEntry.hasValue).map fun info => (info, info.decode buffer) := by
  induction entries with
  | nil => rfl
  | cons info rest ih =>
      have length := lengths info (List.mem_cons_self ..)
      rw [List.filterMap_cons, List.filter_cons, ih fun other inside =>
        lengths other (List.mem_cons_of_mem _ inside)]
      by_cases counted : info.entry.index ≠ 0 ∧ 0 < info.bitLength
      · have hasValue := (MappedEntry.hasValue_iff length).mpr counted
        simp [MappedEntry.outcome?, counted, holds, hasValue]
      · have hasNoValue := (MappedEntry.hasValue_iff length).not.mpr counted
        simp [MappedEntry.outcome?, if_neg counted, hasNoValue]

/-- All entries that a read does not pass over, with what becomes of them. -/
theorem decodeAll_eq (lengths : ∀ info ∈ map.entries, 0 ≤ info.bitLength) :
    map.decodeAll inputs outputs = map.mappings.filterMap fun mapping =>
      (mapping.2.outcome? inputs outputs mapping.1).map (mapping.2, ·) := by
  rw [decodeAll, mappings, List.filterMap_flatMap]
  apply List.flatMap_congr
  intro assignment listed
  rw [PdoAssignment.buffer?_eq, List.filterMap_map]
  cases holds : assignment.smType.buffer? inputs outputs with
  | some buffer =>
      refine (filterMap_outcome? ?_ holds).symm
      intro info inside
      exact lengths info (List.mem_flatMap.mpr ⟨assignment, listed, inside⟩)
  | none =>
      symm
      apply List.filterMap_eq_nil_iff.mpr
      intro info _
      simp [MappedEntry.outcome?, holds]

theorem reads_readValues (lengths : ∀ info ∈ map.entries, 0 ≤ info.bitLength) (slave : Int)
    (inputs outputs : Bytes) :
    Reads slave inputs outputs map.mappings (map.readValues slave inputs outputs).1
      (map.readValues slave inputs outputs).2 := by
  rw [readValues, decodeAll_eq lengths]
  exact reads_filterMap slave inputs outputs map.mappings

theorem mem_entries_of_mem_mappings {type : SyncManagerType} {info : MappedEntry}
    (member : (type, info) ∈ map.mappings) : info ∈ map.entries := by
  obtain ⟨assignment, listed, inside⟩ := List.mem_flatMap.mp member
  obtain ⟨other, found, same⟩ := List.mem_map.mp inside
  cases same
  exact List.mem_flatMap.mpr ⟨assignment, listed, found⟩

section Wording

variable {limits : WritingLimits}

/-- A read is returned exactly if each of its warnings can be worded. -/
theorem exists_readWithin_iff (lengths : ∀ info ∈ map.entries, 0 ≤ info.bitLength) :
    (∃ read, map.readWithin limits slave inputs outputs = .ok read) ↔
      ∀ type info cause, (type, info) ∈ map.mappings →
        info.outcome? inputs outputs type = some (.error cause) →
          (Fault.codec cause).obstacle? limits = none ∧ limits.allows slave = true := by
  have hindered : (∃ read, map.readWithin limits slave inputs outputs = .ok read) ↔
      (map.decodeAll inputs outputs).findSome? (Decoded.obstacle? limits slave) = none := by
    rw [readWithin]
    cases (map.decodeAll inputs outputs).findSome? (Decoded.obstacle? limits slave) <;> simp
  rw [hindered, List.findSome?_eq_none_iff, decodeAll_eq lengths]
  constructor
  · intro worded type info cause member failed
    have inside : (info, Except.error cause) ∈ map.mappings.filterMap fun mapping =>
        (mapping.2.outcome? inputs outputs mapping.1).map (mapping.2, ·) :=
      List.mem_filterMap.mpr ⟨(type, info), member, by rw [failed]; rfl⟩
    simpa [Decoded.obstacle?, WritingLimits.number?_eq_none_iff] using worded _ inside
  · rintro worded ⟨info, outcome⟩ inside
    obtain ⟨⟨type, other⟩, member, found⟩ := List.mem_filterMap.mp inside
    obtain ⟨result, comes, same⟩ := Option.map_eq_some_iff.mp found
    cases same
    cases outcome with
    | ok value => rfl
    | error cause =>
        have free := worded type other cause member comes
        simpa [Decoded.obstacle?, WritingLimits.number?_eq_none_iff] using free

/-- The warning about an entry can be worded if its length and its offset can be written. -/
theorem obstacle?_of_outcome? {type : SyncManagerType} {info : MappedEntry} {cause : CodecFault}
    (failed : info.outcome? inputs outputs type = some (.error cause))
    (length : limits.allows info.bitLength = true) (offset : limits.allows info.bitOffset = true) :
    (Fault.codec cause).obstacle? limits = none := by
  rw [MappedEntry.outcome?] at failed
  split at failed
  · obtain ⟨buffer, _, refused⟩ := Option.map_eq_some_iff.mp failed
    exact (Value.decode_eq_error_iff.mp refused).obstacle?_eq_none length offset
  · cases failed

theorem readWithin_eq_ok {read : List (EntryIndex × Value) × List Notice}
    (returned : map.readWithin limits slave inputs outputs = .ok read) :
    read = map.readValues slave inputs outputs := by
  rw [readWithin] at returned
  split at returned
  · cases returned
  · cases returned
    rfl

end Wording

section Mixed

/-- An entry of eight bits. -/
def octet (subindex byteOffset : Int) (type : Option DataType) (direction : SyncManagerType) :
    MappedEntry :=
  ⟨0, ⟨0x7000, subindex⟩, 8, byteOffset, 0, type, direction, .text []⟩

/-- Entries that have a value, that are padding, that are empty, that have no known type, that
lie outside their buffer, and that have none. -/
def mixedMap : PdoMap :=
  [⟨2, .outputs, [⟨0, 0x1600, 2, .text [], [octet 1 0 (some .u8) .outputs,
    { octet 0 1 none .outputs with entry := ⟨0, 0⟩ },
    { octet 2 1 (some .u8) .outputs with bitLength := 0 }, octet 3 0 none .outputs]⟩]⟩,
    ⟨3, .inputs, [⟨1, 0x1a00, 3, .text [], [octet 4 1 (some .i8) .inputs]⟩]⟩,
    ⟨0, .mailboxWrite, [⟨2, 0x1a01, 0, .text [], [octet 5 0 (some .u8) .mailboxWrite]⟩]⟩]

end Mixed

end PdoMap

end Fieldbus
