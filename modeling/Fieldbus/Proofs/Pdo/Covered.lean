import Fieldbus.Master.Configuration
import Fieldbus.Proofs.Pdo.Frame
import Fieldbus.Proofs.Pdo.Reading
import Fieldbus.Proofs.Pdo.Readback

/-!
# Covered maps

Buffers that are as long as a map says hold every entry of the map.  A read of them skips an entry
for its type or its length only.
-/

namespace Fieldbus

namespace MappedEntry

/-- The entry has a value, of a type and a length that the codec has. -/
def IsReadable (info : MappedEntry) : Prop :=
  info.hasValue = true ∧ Value.Supports info.dataType info.bitLength

/-- The entry has a value, but not one that the codec has. -/
def IsUnreadable (info : MappedEntry) : Prop :=
  info.hasValue = true ∧ ¬ Value.Supports info.dataType info.bitLength

instance : DecidablePred IsReadable := fun _ => instDecidableAnd

instance : DecidablePred IsUnreadable := fun _ => instDecidableAnd

end MappedEntry

namespace PdoMap

variable {map : PdoMap} {type : SyncManagerType} {info : MappedEntry} {slave : Int}
  {inputs outputs buffer : Bytes} {mappings : List (SyncManagerType × MappedEntry)}
  {values : List (EntryIndex × Value)} {notices : List Notice}
  {decodes fails : SyncManagerType × MappedEntry → Prop} [DecidablePred decodes]
  [DecidablePred fails]

/-- The values of a read are those of the entries that decode, and its warnings are those about the
entries that fail. -/
theorem Reads.listed (reads : Reads slave inputs outputs mappings values notices)
    (exact : ∀ mapping ∈ mappings, decodes mapping ↔
      ∃ value, mapping.2.outcome? inputs outputs mapping.1 = some (.ok value))
    (rest : ∀ mapping ∈ mappings, fails mapping ↔
      ∃ fault, mapping.2.outcome? inputs outputs mapping.1 = some (.error fault)) :
    List.Forall₂ (fun mapping item => item.1 = mapping.2.entry ∧
        mapping.2.outcome? inputs outputs mapping.1 = some (.ok item.2))
      (mappings.filter decodes) values ∧
    List.Forall₂ (fun mapping notice => ∃ fault, notice = mapping.2.skipNotice slave fault ∧
        mapping.2.outcome? inputs outputs mapping.1 = some (.error fault))
      (mappings.filter fails) notices := by
  induction reads with
  | nil => exact ⟨.nil, .nil⟩
  | passed ignored _ ih =>
      rw [List.forall_mem_cons] at exact rest
      simpa [List.filter_cons, exact.1, rest.1, ignored] using ih exact.2 rest.2
  | value decoded _ ih =>
      rw [List.forall_mem_cons] at exact rest
      simpa [List.filter_cons, exact.1, rest.1, decoded] using ih exact.2 rest.2
  | warning failed _ ih =>
      rw [List.forall_mem_cons] at exact rest
      simpa [List.filter_cons, exact.1, rest.1, failed] using ih exact.2 rest.2

namespace Gapless

variable (gapless : map.Gapless)
include gapless

theorem stopBit_le_bits (member : info ∈ map.entriesOf type) : info.stopBit ≤ map.bits type := by
  obtain ⟨before, after, split⟩ := List.append_of_mem member
  have rest : 0 ≤ (after.map MappedEntry.bitLength).sum := by
    apply gapless.sum_bitLength_nonneg
    rw [split]
    exact List.subset_append_of_subset_right _ (List.subset_cons_self ..)
  rw [MappedEntry.stopBit, gapless.firstBit_eq_of_append split, bits_eq_sum, split]
  simp only [List.map_append, List.map_cons, List.sum_append, List.sum_cons]
  omega

theorem byteStop_le_length (member : info ∈ map.entriesOf type)
    (sized : (buffer.length : Int) = byteCount (map.bits type)) :
    0 ≤ info.byteOffset ∧ info.byteOffset + info.byteCount ≤ buffer.length := by
  obtain ⟨byteOffset, bitOffset, bitLength, byteEq, bitEq, _, lengthEq⟩ :=
    gapless.exists_place member
  have reached := gapless.stopBit_le_bits member
  rw [MappedEntry.stopBit, MappedEntry.firstBit, byteEq, bitEq, lengthEq] at reached
  rw [MappedEntry.byteCount, sized, byteEq, lengthEq, byteCount, byteCount]
  omega

theorem mem_entriesOf_of_mem_mappings (member : (type, info) ∈ map.mappings) :
    info ∈ map.entriesOf type ∧ (type = .outputs ∨ type = .inputs) := by
  obtain ⟨assignment, listed, inside⟩ := List.mem_flatMap.mp member
  obtain ⟨other, found, same⟩ := List.mem_map.mp inside
  cases same
  refine ⟨List.mem_flatMap.mpr ⟨assignment, ?_, found⟩, gapless.directed assignment listed⟩
  exact List.mem_filter.mpr ⟨listed, by simp⟩

end Gapless

/-- The buffers are as long as the map says. -/
structure Sized (map : PdoMap) (inputs outputs : Bytes) : Prop where
  outputs : (outputs.length : Int) = byteCount (map.bits .outputs)
  inputs : (inputs.length : Int) = byteCount (map.bits .inputs)

section Sized

variable (gapless : map.Gapless) (sized : map.Sized inputs outputs)
  (member : (type, info) ∈ map.mappings)
include gapless sized member

/-- Every entry lies inside the buffer of its direction. -/
theorem Sized.exists_buffer : ∃ buffer, type.buffer? inputs outputs = some buffer ∧
    0 ≤ info.byteOffset ∧ info.byteOffset + info.byteCount ≤ buffer.length := by
  obtain ⟨place, direction⟩ := gapless.mem_entriesOf_of_mem_mappings member
  rcases direction with rfl | rfl
  · exact ⟨outputs, rfl, gapless.byteStop_le_length place sized.outputs⟩
  · exact ⟨inputs, rfl, gapless.byteStop_le_length place sized.inputs⟩

/-- An entry without a value is passed over, one that the codec has is decoded, and any other one
fails for its type or its length. -/
theorem Sized.outcome?_cases :
    (info.hasValue = false ∧ info.outcome? inputs outputs type = none) ∨
      (info.IsReadable ∧ ∃ value, info.outcome? inputs outputs type = some (.ok value)) ∨
      (info.IsUnreadable ∧ ∃ objection, info.outcome? inputs outputs type =
        some (.error (.unsupportedType (.inl info.dataType) objection))) := by
  obtain ⟨buffer, holds, _, inside⟩ := sized.exists_buffer gapless member
  obtain ⟨place, _⟩ := gapless.mem_entriesOf_of_mem_mappings member
  have hasValue := MappedEntry.hasValue_iff (gapless.bitLength_nonneg place)
  rw [MappedEntry.outcome?, holds, Option.map_some]
  by_cases counted : info.entry.index ≠ 0 ∧ 0 < info.bitLength
  · rw [if_pos counted]
    have offsets := gapless.offsets info (mem_entries_of_mem_entriesOf place)
    have reaches : byteCount info.bitLength ≤ (info.window buffer).length :=
      (gapless.length_window place inside).ge
    have inhabited := gapless.window_ne_nil place inside counted.2
    rw [MappedEntry.decode]
    cases decoded : Value.decode info.dataType info.bitLength (info.window buffer)
        info.bitOffset with
    | ok value =>
        have supports := (Value.exists_decode_iff.mp ⟨value, decoded⟩).2.1
        exact Or.inr (Or.inl ⟨⟨hasValue.mpr counted, supports⟩, value, rfl⟩)
    | error fault =>
        obtain ⟨objection, rfl⟩ := Value.unsupported_of_decode_error inhabited reaches decoded
        refine Or.inr (Or.inr ⟨⟨hasValue.mpr counted, ?_⟩, objection, rfl⟩)
        intro supports
        have decodes : ∃ value, Value.decode info.dataType info.bitLength (info.window buffer)
            info.bitOffset = .ok value :=
          Value.exists_decode_iff.mpr ⟨inhabited, supports, reaches, fun _ => by omega⟩
        rw [decoded] at decodes
        simp at decodes
  · rw [if_neg counted]
    exact Or.inl ⟨by simpa using hasValue.not.mpr counted, rfl⟩

theorem Sized.isReadable_iff : info.IsReadable ↔
    ∃ value, info.outcome? inputs outputs type = some (.ok value) := by
  rcases sized.outcome?_cases gapless member with
      ⟨hasValue, outcome⟩ | ⟨readable, value, outcome⟩ | ⟨unreadable, objection, outcome⟩
  · simp [MappedEntry.IsReadable, hasValue, outcome]
  · simp [readable, outcome]
  · simp [MappedEntry.IsReadable, unreadable.2, outcome]

theorem Sized.isUnreadable_iff : info.IsUnreadable ↔
    ∃ fault, info.outcome? inputs outputs type = some (.error fault) := by
  rcases sized.outcome?_cases gapless member with
      ⟨hasValue, outcome⟩ | ⟨readable, value, outcome⟩ | ⟨unreadable, objection, outcome⟩
  · simp [MappedEntry.IsUnreadable, hasValue, outcome]
  · simp [MappedEntry.IsUnreadable, readable.2, outcome]
  · simp [unreadable, outcome]

theorem Sized.unsupported {fault : CodecFault}
    (failed : info.outcome? inputs outputs type = some (.error fault)) :
    ∃ objection, fault = .unsupportedType (.inl info.dataType) objection := by
  rcases sized.outcome?_cases gapless member with
      ⟨_, outcome⟩ | ⟨_, value, outcome⟩ | ⟨_, objection, outcome⟩
  · simp [outcome] at failed
  · simp [outcome] at failed
  · exact ⟨objection, by simpa [outcome] using failed.symm⟩

end Sized

end PdoMap

namespace Master

variable {ε : Type} [Engine ε] {master between : Master ε} {slave outputBits inputBits : Int}
  {map : PdoMap} {info : SlaveInfo}

/-- The comparison of sizes accepts a slave with as many bytes as its map says, and no other. -/
theorem validateSizes_accepts_iff (mapped : master.maps.get? slave = some map)
    (sizes : map.bitSizes = .ok (outputBits, inputBits))
    (told : ask (Engine.slaveInfo slave) master = .ok info between) :
    (∃ after, validateSizes slave master = .ok true after) ↔
      byteCount outputBits = info.outputBytes ∧ byteCount inputBits = info.inputBytes := by
  have found : Master.map slave master = .ok map master := by rw [Master.map, mapped]
  have ofSizes : Action.ofAccident map.bitSizes master =
      .ok (outputBits, inputBits) master := by rw [sizes]; rfl
  rw [validateSizes, Action.bind_of_ok found, Action.bind_of_ok ofSizes]
  dsimp only
  rw [Action.bind_of_ok told]
  by_cases same : (byteCount outputBits, byteCount inputBits) =
      ((info.outputBytes : Int), (info.inputBytes : Int))
  · simp only [if_pos same]
    rw [Prod.mk.injEq] at same
    exact ⟨fun _ => same, fun _ => ⟨between, rfl⟩⟩
  · simp only [if_neg same]
    rw [Prod.mk.injEq] at same
    refine ⟨?_, fun equal => absurd equal same⟩
    rintro ⟨after, accepted⟩
    obtain ⟨_, _, _, accepted⟩ := Action.bind_eq_ok_iff.mp accepted
    split at accepted
    · cases accepted
    · obtain ⟨_, _, _, accepted⟩ := Action.bind_eq_ok_iff.mp accepted
      cases accepted

end Master

namespace Layout

variable {ε : Type} [Engine ε] {dictionary : Option ObjectDictionary} {slave : Int}
  {timeout : Number} {session after : Session ε} {map : PdoMap}

/-- A map that was laid out has a size in both directions, which is the one that the comparison of
sizes accepts, and every entry lies inside buffers of these sizes.  A read of them lists all entries
that the codec can read, in order, and warns about the other ones for their type or their length. -/
theorem reads_covered (resolved : resolve dictionary slave timeout session = .ok map after) :
    ∃ outputBits inputBits, map.bitSizes = .ok (outputBits, inputBits) ∧
      (∀ (master between : Master ε) (info : SlaveInfo), master.maps.get? slave = some map →
        Master.ask (Engine.slaveInfo slave) master = .ok info between →
        ((∃ after, Master.validateSizes slave master = .ok true after) ↔
          byteCount outputBits = info.outputBytes ∧ byteCount inputBits = info.inputBytes)) ∧
      ∀ (reader : Int) (inputs outputs : Bytes),
        (outputs.length : Int) = byteCount outputBits →
        (inputs.length : Int) = byteCount inputBits →
        (∀ type info, (type, info) ∈ map.mappings →
          ∃ buffer, type.buffer? inputs outputs = some buffer ∧
            0 ≤ info.byteOffset ∧ info.byteOffset + info.byteCount ≤ buffer.length) ∧
        List.Forall₂ (fun mapping item => item.1 = mapping.2.entry ∧
            mapping.2.outcome? inputs outputs mapping.1 = some (.ok item.2))
          (map.mappings.filter fun mapping => mapping.2.IsReadable)
          (map.readValues reader inputs outputs).1 ∧
        List.Forall₂ (fun mapping notice => ∃ fault,
            notice = mapping.2.skipNotice reader fault ∧
            mapping.2.outcome? inputs outputs mapping.1 = some (.error fault))
          (map.mappings.filter fun mapping => mapping.2.IsUnreadable)
          (map.readValues reader inputs outputs).2 ∧
        ∀ type info fault, (type, info) ∈ map.mappings →
          info.outcome? inputs outputs type = some (.error fault) →
          ∃ objection, fault = .unsupportedType (.inl info.dataType) objection := by
  have gapless := gapless_of_resolve resolved
  have sizes : map.bitSizes = .ok (map.bits .outputs, map.bits .inputs) := by
    rw [gapless.bits_eq_stopOf, gapless.bits_eq_stopOf, gapless.bitSizes_eq]
  refine ⟨map.bits .outputs, map.bits .inputs, sizes, ?_, ?_⟩
  · intro master between info mapped told
    exact Master.validateSizes_accepts_iff mapped sizes told
  · intro reader inputs outputs outputsEq inputsEq
    have sized : map.Sized inputs outputs := ⟨outputsEq, inputsEq⟩
    have reads := PdoMap.reads_readValues gapless.lengths reader inputs outputs
    have listed := reads.listed (fun mapping member => sized.isReadable_iff gapless member)
      fun mapping member => sized.isUnreadable_iff gapless member
    refine ⟨fun type info member => sized.exists_buffer gapless member, listed.1, listed.2, ?_⟩
    intro type info fault member failed
    exact sized.unsupported gapless member failed

/-- Two bytes hold the thirteen bits of a slave: the truth value and the number that starts inside
its byte are listed, and the four bits of a number are skipped. -/
theorem reads_covered_nibbleSlave :
    ∃ after, resolve (some nibbleDictionary) 0 defaultTimeout (sessionWith nibbleSlave) =
        .ok nibbleMap after ∧
      nibbleMap.bitSizes = .ok (13, 0) ∧
      (nibbleMap.mappings.filter fun mapping => mapping.2.IsReadable) =
        [(.outputs, nibbleFlag), (.outputs, nibbleCode)] ∧
      nibbleCode.byteOffset + nibbleCode.byteCount ≤ ([0x10, 0] : Bytes).length ∧
      (nibbleMap.readValues 0 [] [0x10, 0]).1.map Prod.fst = [⟨0x7000, 2⟩, ⟨0x7000, 3⟩] ∧
      ∃ objection, (nibbleMap.readValues 0 [] [0x10, 0]).2 =
        [nibbleLevel.skipNotice 0 (.unsupportedType (.inl (some .u8)) objection)] := by
  obtain ⟨after, resolved⟩ := resolve_nibbleSlave
  have sizes : nibbleMap.bitSizes = .ok (13, 0) := rfl
  have readable : (nibbleMap.mappings.filter fun mapping => mapping.2.IsReadable) =
      [(.outputs, nibbleFlag), (.outputs, nibbleCode)] := by decide
  have unreadable : (nibbleMap.mappings.filter fun mapping => mapping.2.IsUnreadable) =
      [(.outputs, nibbleLevel)] := by decide
  obtain ⟨outputBits, inputBits, found, -, covered⟩ := reads_covered resolved
  cases sizes.symm.trans found
  obtain ⟨inside, values, notices, blamed⟩ := covered 0 [] [0x10, 0] rfl rfl
  refine ⟨after, resolved, sizes, readable, ?_, ?_, ?_⟩
  · obtain ⟨buffer, isBuffer, -, reaches⟩ := inside .outputs nibbleCode (by decide)
    cases isBuffer
    exact reaches
  · rw [readable] at values
    generalize (nibbleMap.readValues 0 [] [0x10, 0]).1 = items at values
    obtain _ | ⟨⟨first, -⟩, _ | ⟨⟨second, -⟩, _ | _⟩⟩ := values
    rw [List.map_cons, List.map_cons, first, second]
    rfl
  · rw [unreadable] at notices
    generalize (nibbleMap.readValues 0 [] [0x10, 0]).2 = warnings at notices
    obtain _ | ⟨⟨fault, isNotice, failed⟩, _ | _⟩ := notices
    obtain ⟨objection, rfl⟩ := blamed .outputs nibbleLevel fault (by decide) failed
    exact ⟨objection, by rw [isNotice]; rfl⟩

end Layout

end Fieldbus
