import Fieldbus.Proofs.Pdo.Write
import Fieldbus.Proofs.Value.RoundTrip

/-!
# Reading back a mapped value

A value that is written into the outputs of a slave is decoded from them as it was, if its type
is exact and its entry is made of whole bytes.
-/

namespace Fieldbus

namespace PdoMap

namespace Gapless

variable {map : PdoMap} {type : SyncManagerType} {info : MappedEntry} {buffer data changed : Bytes}
  {known : DataType} {storage : Storage} {truth : Bool}
variable (gapless : map.Gapless) (member : info ∈ map.entriesOf type)
include gapless member

/-- The bytes of an entry are counted from the start of the buffer. -/
theorem exists_window : ∃ start size : Nat, info.byteOffset = start ∧ info.byteCount = size ∧
    ∀ buffer, info.window buffer = buffer.slice start (start + size : Nat) := by
  obtain ⟨start, _, bitLength, startEq, _, _, bitLengthEq⟩ := gapless.exists_place member
  have sizeEq : info.byteCount = ((bitLength + 7) / 8 : Nat) := by
    rw [MappedEntry.byteCount, bitLengthEq, Fieldbus.byteCount]
    omega
  refine ⟨start, _, startEq, sizeEq, ?_⟩
  intro buffer
  rw [MappedEntry.window, startEq, sizeEq, Int.natCast_add]

section Inside

variable (inside : info.byteOffset + info.byteCount ≤ buffer.length)
include inside

theorem length_window : ((info.window buffer).length : Int) = info.byteCount := by
  obtain ⟨start, size, startEq, sizeEq, window⟩ := gapless.exists_window member
  rw [window, Bytes.length_slice_ofNat]
  omega

theorem window_ne_nil (positive : 0 < info.bitLength) : info.window buffer ≠ [] := by
  have lengthEq := gapless.length_window member inside
  apply List.ne_nil_of_length_pos
  rw [MappedEntry.byteCount, Fieldbus.byteCount] at lengthEq
  omega

/-- An entry of a supported type is decoded from its bytes, if the buffer holds them. -/
theorem decode_of_fits (typed : info.dataType = some known)
    (stored : known.storage? = some storage) (fits : Value.Fits storage info.bitLength) :
    info.decode buffer =
      .ok ⟨known, storage.payload (info.window buffer) info.bitOffset⟩ := by
  have offsets := gapless.offsets info (mem_entries_of_mem_entriesOf member)
  have lengthEq := gapless.length_window member inside
  have inhabited := gapless.window_ne_nil member inside fits.positive
  rw [MappedEntry.byteCount] at lengthEq
  have whole : (info.window buffer).take (byteCount info.bitLength).toNat = info.window buffer := by
    apply List.take_of_length_le
    omega
  rw [MappedEntry.decode, typed, Value.decode_of_fits stored fits inhabited (by omega)
    (fun _ => by omega), whole]

end Inside

theorem window_splice (fits : (data.length : Int) = info.byteCount)
    (inside : info.byteOffset + info.byteCount ≤ buffer.length) :
    info.window (buffer.splice info.byteOffset (info.byteOffset + info.byteCount) data) =
      data := by
  obtain ⟨start, size, startEq, sizeEq, window⟩ := gapless.exists_window member
  rw [sizeEq] at fits
  rw [startEq, sizeEq] at inside
  rw [window, startEq, sizeEq, ← Int.natCast_add]
  apply List.ext_getElem?
  intro index
  rw [Bytes.getElem?_slice_ofNat,
    Bytes.getElem?_splice (Nat.le_add_right _ _) (by omega) (by omega)]
  by_cases within : index < size
  · rw [if_pos (by omega), if_pos (by omega), Nat.add_sub_cancel_left]
  · rw [if_neg (by omega), List.getElem?_eq_none (by omega)]

/-- The bit of a truth value that was patched is the one put in. -/
theorem bit_of_patch (positive : 0 < info.bitLength)
    (patched : patchAt buffer info.byteOffset (UInt8.ofNat (2 ^ info.bitOffset.toNat)) truth =
      .ok changed) :
    decide ((info.window changed).toNat / 2 ^ info.bitOffset.toNat % 2 = 1) = truth := by
  obtain ⟨start, size, startEq, sizeEq, window⟩ := gapless.exists_window member
  have offsets := gapless.offsets info (mem_entries_of_mem_entriesOf member)
  have small : info.bitOffset.toNat < 8 := by omega
  rw [startEq] at patched
  obtain ⟨byte, holds, rfl⟩ := patchAt_ok patched
  have sizePositive : 0 < size := by
    rw [MappedEntry.byteCount, Fieldbus.byteCount] at sizeEq
    omega
  rw [Value.truth_eq_bit? _ small, window, Bytes.bit?_slice_ofNat, if_pos (by omega),
    Bytes.bit?_set_patch holds truth small, if_pos rfl, Option.getD_some]

end Gapless

variable {slave : Int} {map : PdoMap} {inputs outputs changed : Bytes} {entry : EntryIndex}
  {value : Value} {info : MappedEntry}

theorem find?_of_once (once : map.entries.filter (·.entry = entry) = [info])
    (direction : info.smType = .outputs) : map.find? entry = some info := by
  rw [find?, once]
  simp [direction]

theorem mem_readValues (member : info ∈ map.entriesOf .outputs)
    (hasValue : info.hasValue = true) (decoded : info.decode outputs = .ok value) :
    (info.entry, value) ∈ (map.readValues slave inputs outputs).1 := by
  obtain ⟨assignment, kept, inside⟩ := List.mem_flatMap.mp member
  obtain ⟨listed, direction⟩ := List.mem_filter.mp kept
  have isOutput : assignment.smType = .outputs := by simpa using direction
  have listing : (info, info.decode outputs) ∈ map.decodeAll inputs outputs := by
    apply List.mem_flatMap.mpr
    refine ⟨assignment, listed, ?_⟩
    simp only [PdoAssignment.buffer?, isOutput]
    exact List.mem_map.mpr ⟨info, List.mem_filter.mpr ⟨inside, hasValue⟩, rfl⟩
  apply List.mem_filterMap.mpr
  refine ⟨_, listing, ?_⟩
  rw [decoded]
  rfl

section Written

variable (gapless : map.Gapless) (written : map.write slave outputs entry value = .ok changed)
  (found : map.find? entry = some info) (positive : 0 < info.bitLength)
include gapless written found positive

theorem getElem?_of_write : changed.length = outputs.length ∧ ∀ index : Nat,
    ¬ (info.byteOffset ≤ index ∧ (index : Int) < info.byteOffset + info.byteCount) →
      changed[index]? = outputs[index]? := by
  obtain ⟨other, member, otherFound, lengthEq, bits⟩ := bit?_of_write gapless written
  cases otherFound.symm.trans found
  refine ⟨lengthEq, ?_⟩
  intro index outside
  apply Bytes.getElem?_eq_of_bit?_eq lengthEq
  intro bit inside
  apply bits
  intro writes
  rw [MappedEntry.Writes] at writes
  rw [MappedEntry.byteCount, Fieldbus.byteCount] at outside writes
  have offsets := gapless.offsets info (mem_entries_of_mem_entriesOf member)
  split at writes
  · rw [MappedEntry.firstBit] at writes
    omega
  · omega

theorem decode_of_write (typed : info.dataType = some value.dataType)
    (exact : value.dataType ∈ DataType.exact)
    (aligned : value.dataType ≠ .bool → info.bitLength % 8 = 0) :
    info.decode changed = .ok ⟨value.dataType, value.payload.settled⟩ := by
  obtain ⟨other, otherFound, direction, inside, shape⟩ := write_ok written
  cases otherFound.symm.trans found
  have lengthEq := (getElem?_of_write gapless written found positive).1
  have member : info ∈ map.entriesOf .outputs := by
    rw [← direction]
    exact gapless.mem_entriesOf (mem_entries_of_find? found).1
  have reaches : info.byteOffset + info.byteCount ≤ changed.length := by rwa [lengthEq]
  obtain ⟨storage, stored, integers⟩ := DataType.exists_storage_of_exact exact
  rcases shape with ⟨truth, isTruth, payload, patched⟩ | ⟨data, notTruth, encoded, fits, rfl⟩
  · have isStored : storage = .truth := by
      rw [isTruth] at stored
      exact (Option.some.inj stored).symm
    subst isStored
    have fits : Value.Fits .truth info.bitLength := ⟨positive, fun whole => absurd rfl whole, nofun⟩
    rw [gapless.decode_of_fits member reaches typed stored fits, payload, Storage.payload,
      gapless.bit_of_patch member positive patched]
    rfl
  · have whole : storage ≠ .truth := by
      rintro rfl
      exact notTruth (DataType.storage?_eq_truth_iff.mp stored)
    obtain ⟨widths, payloadEq⟩ :=
      Value.payload_of_encode stored whole integers encoded info.bitOffset
    have fitting : Value.Fits storage info.bitLength := by
      refine ⟨positive, fun _ => aligned notTruth, ?_⟩
      intro scalar same
      rw [← widths scalar same]
      exact fits
    rw [gapless.decode_of_fits member reaches typed stored fitting,
      gapless.window_splice member fits inside, payloadEq]

end Written

end PdoMap

end Fieldbus
