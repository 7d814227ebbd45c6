import Fieldbus.Proofs.Pdo.Resolve
import Fieldbus.Proofs.Pdo.Write
import Fieldbus.Proofs.Value.Decoding

/-!
# The frame of a write

What a write leaves alone in the outputs of a slave, bit by bit and entry by entry.  A
write of whole bytes reaches into its neighbours where the entry does not start or end at
a byte; a write that stays within its entry leaves all the others as they are.
-/

namespace Fieldbus

namespace MappedEntry

/-- The bits that the value of an entry is made of.  An entry without bits has no value,
and only truth values may end inside a byte. -/
def Reads (info : MappedEntry) (bit : Nat) : Prop :=
  0 < info.bitLength ∧
    if info.dataType = some .bool then (bit : Int) = info.firstBit
    else 8 ∣ info.bitLength ∧ info.byteOffset ≤ (bit / 8 : Nat) ∧
      ((bit / 8 : Nat) : Int) < info.byteOffset + info.byteCount

/-- A write of the value stays within the bits that the entry maps: it is one bit of an
entry with bits, or the entry is made of whole bytes. -/
def Confines (info : MappedEntry) (value : Value) : Prop :=
  if value.dataType = .bool then 0 < info.bitLength
  else info.bitOffset = 0 ∧ 8 ∣ info.bitLength

/-- The value of the entry is made of bits that the entry maps. -/
def ReadsOwn (info : MappedEntry) : Prop :=
  info.dataType = some .bool ∨ info.bitOffset = 0

variable {info : MappedEntry} {first second : Bytes} {value : Value}

theorem decode_congr {byteOffset bitOffset bitLength : Nat} (byteEq : info.byteOffset = byteOffset)
    (bitEq : info.bitOffset = bitOffset) (bitLengthEq : info.bitLength = bitLength)
    (lengthEq : first.length = second.length)
    (agree : ∀ bit, info.Reads bit → first.bit? bit = second.bit? bit) :
    info.decode first = info.decode second := by
  obtain ⟨size, sizeEq⟩ : ∃ size : Nat, info.byteCount = size := by
    refine ⟨(bitLength + 7) / 8, ?_⟩
    rw [byteCount, bitLengthEq, Fieldbus.byteCount]
    omega
  have window (buffer : Bytes) :
      info.window buffer = buffer.slice byteOffset (byteOffset + size : Nat) := by
    rw [MappedEntry.window, byteEq, sizeEq, Int.natCast_add]
  rw [decode, decode, window, window]
  apply Value.decode_congr
  · rw [Bytes.length_slice_ofNat, Bytes.length_slice_ofNat, lengthEq]
  · intro isTruth positive _ _
    rw [Bytes.bit?_slice_ofNat, Bytes.bit?_slice_ofNat, bitEq, Int.toNat_natCast]
    rw [agree (8 * byteOffset + bitOffset)]
    refine ⟨positive, ?_⟩
    rw [if_pos isTruth, firstBit, byteEq, bitEq]
    omega
  · intro notTruth positive aligned
    apply List.ext_getElem?
    intro index
    rw [Bytes.getElem?_slice_ofNat, Bytes.getElem?_slice_ofNat]
    by_cases inside : byteOffset + index < byteOffset + size
    · rw [if_pos inside, if_pos inside]
      apply Bytes.getElem?_eq_of_bit?_eq lengthEq
      intro bit within
      apply agree
      refine ⟨positive, ?_⟩
      rw [if_neg notTruth, within, byteEq, sizeEq]
      exact ⟨aligned, by omega, by omega⟩
    · rw [if_neg inside, if_neg inside]

theorem Writes.inside {bit : Nat} (writes : info.Writes value bit)
    (confines : info.Confines value) : info.firstBit ≤ bit ∧ (bit : Int) < info.stopBit := by
  rw [Writes] at writes
  rw [Confines] at confines
  rw [stopBit]
  by_cases isTruth : value.dataType = .bool
  · rw [if_pos isTruth] at writes confines
    omega
  · rw [if_neg isTruth] at confines
    obtain ⟨aligned, whole⟩ := confines
    rw [if_neg isTruth, byteCount, Fieldbus.byteCount] at writes
    rw [firstBit, aligned]
    omega

theorem Reads.inside {bit : Nat} (reads : info.Reads bit) (own : info.ReadsOwn) :
    info.firstBit ≤ bit ∧ (bit : Int) < info.stopBit := by
  obtain ⟨positive, place⟩ := reads
  rw [stopBit]
  by_cases isTruth : info.dataType = some .bool
  · rw [if_pos isTruth] at place
    omega
  · have aligned := own.resolve_left isTruth
    rw [if_neg isTruth, byteCount, Fieldbus.byteCount] at place
    rw [firstBit, aligned]
    omega

end MappedEntry

namespace PdoMap

/-- What a write of a value to an entry leaves alone: the length of the outputs, every bit
that it does not write, and with it every entry that is not made of such bits.  A write that
is confined leaves alone all bits outside of its entry and all other entries whose values are
made of their own bits. -/
structure FrameOf (map : PdoMap) (info : MappedEntry) (value : Value) (outputs changed : Bytes) :
    Prop where
  length : changed.length = outputs.length
  bits : ∀ bit, ¬ info.Writes value bit → changed.bit? bit = outputs.bit? bit
  entries : ∀ other ∈ map.entriesOf .outputs,
    (∀ bit, other.Reads bit → ¬ info.Writes value bit) →
      other.decode changed = other.decode outputs
  bitsOutside : info.Confines value → ∀ bit : Nat,
    (bit : Int) < info.firstBit ∨ info.stopBit ≤ bit → changed.bit? bit = outputs.bit? bit
  others : info.Confines value → ∀ other ∈ map.entriesOf .outputs, other ≠ info →
    other.ReadsOwn → other.decode changed = other.decode outputs

variable {map : PdoMap} {slave : Int} {outputs changed : Bytes} {entry : EntryIndex}
  {value : Value} {info : MappedEntry}

/-- Outputs that differ in written bits only have the frame of the write. -/
theorem Gapless.frameOf (gapless : map.Gapless) (member : info ∈ map.entriesOf .outputs)
    (lengthEq : changed.length = outputs.length)
    (bits : ∀ bit, ¬ info.Writes value bit → changed.bit? bit = outputs.bit? bit) :
    map.FrameOf info value outputs changed := by
  have entries : ∀ other ∈ map.entriesOf .outputs,
      (∀ bit, other.Reads bit → ¬ info.Writes value bit) →
        other.decode changed = other.decode outputs := by
    intro other listed untouched
    obtain ⟨byteOffset, bitOffset, bitLength, byteEq, bitEq, _, bitLengthEq⟩ :=
      gapless.exists_place listed
    apply MappedEntry.decode_congr byteEq bitEq bitLengthEq lengthEq
    intro bit reads
    exact bits bit (untouched bit reads)
  refine ⟨lengthEq, bits, entries, ?_, ?_⟩
  · intro confines bit outside
    apply bits
    intro writes
    have within := writes.inside confines
    omega
  · intro confines other listed different own
    apply entries other listed
    intro bit reads writes
    have written := writes.inside confines
    have read := reads.inside own
    have apart := gapless.apart listed member different
    omega

end PdoMap

namespace Layout

variable {ε : Type} [Engine ε] {dictionary : Option ObjectDictionary} {slave : Int}
  {timeout : Number} {session after : Session ε} {map : PdoMap} {outputs changed : Bytes}
  {entry : EntryIndex} {value : Value}

/-- A write that succeeds on a map that was laid out has its frame. -/
theorem frameOf_write (resolved : resolve dictionary slave timeout session = .ok map after)
    (written : map.write slave outputs entry value = .ok changed) :
    ∃ info ∈ map.entriesOf .outputs, map.find? entry = some info ∧
      map.FrameOf info value outputs changed := by
  have gapless := gapless_of_resolve resolved
  obtain ⟨info, member, found, lengthEq, bits⟩ := PdoMap.bit?_of_write gapless written
  exact ⟨info, member, found, gapless.frameOf member lengthEq bits⟩

/-- A slave that maps four bits of a number, a truth value in the same byte, and a number
that starts inside that byte. -/
def nibbleSlave : SimulatedSlave :=
  { SimulatedSlave.plain with
    mailbox := [
      (⟨0x1c00, 0⟩, [.data [3]]), (⟨0x1c00, 3⟩, [.data [3]]),
      (⟨0x1c12, 0⟩, [.data [1]]), (⟨0x1c12, 1⟩, [.data [0x00, 0x16]]),
      (⟨0x1600, 0⟩, [.data [3]]), (⟨0x1600, 1⟩, [.data (mappingWord 0x7000 1 4)]),
      (⟨0x1600, 2⟩, [.data (mappingWord 0x7000 2 1)]),
      (⟨0x1600, 3⟩, [.data (mappingWord 0x7000 3 8)])] }

def nibbleDictionary : ObjectDictionary :=
  let info (subindex : Int) (type : DataType) (bitLength : Int) : EntryInfo :=
    ⟨⟨0x7000, subindex⟩, some type, bitLength, .ofBits 7, .text [], type.code⟩
  ⟨[(0, [{
    position := 0
    index := 0x7000
    objectCode := 9
    maxSubindex := 3
    name := .text []
    entries := [info 0 .u8 8, info 1 .u8 8, info 2 .bool 1, info 3 .u8 8] }])]⟩

def nibbleLevel : MappedEntry :=
  ⟨0, ⟨0x7000, 1⟩, 4, 0, 0, some .u8, .outputs, .text []⟩

def nibbleFlag : MappedEntry :=
  ⟨1, ⟨0x7000, 2⟩, 1, 0, 4, some .bool, .outputs, .text []⟩

def nibbleCode : MappedEntry :=
  ⟨2, ⟨0x7000, 3⟩, 8, 0, 5, some .u8, .outputs, .text []⟩

def nibbleMap : PdoMap :=
  [⟨2, .outputs, [⟨0, 0x1600, 2, .text [], [nibbleLevel, nibbleFlag, nibbleCode]⟩]⟩]

theorem resolve_nibbleSlave :
    ∃ after, resolve (some nibbleDictionary) 0 defaultTimeout (sessionWith nibbleSlave) =
      .ok nibbleMap after := by
  apply Action.exists_ok_of_result?
  decide +kernel

/-- A truth value next to a number is written without a change of the number. -/
theorem frameOf_write_nibbleFlag :
    ∃ after info, resolve (some nibbleDictionary) 0 defaultTimeout (sessionWith nibbleSlave) =
        .ok nibbleMap after ∧
      nibbleMap.write 0 [0x03, 0] ⟨0x7000, 2⟩ ⟨.bool, .bool true⟩ = .ok [0x13, 0] ∧
      nibbleMap.find? ⟨0x7000, 2⟩ = some info ∧ info.Confines ⟨.bool, .bool true⟩ ∧
      nibbleMap.FrameOf info ⟨.bool, .bool true⟩ [0x03, 0] [0x13, 0] := by
  obtain ⟨after, resolved⟩ := resolve_nibbleSlave
  have written : nibbleMap.write 0 [0x03, 0] ⟨0x7000, 2⟩ ⟨.bool, .bool true⟩ =
      .ok [0x13, 0] := rfl
  obtain ⟨info, _, found, frame⟩ := frameOf_write resolved written
  refine ⟨after, info, resolved, written, found, ?_, frame⟩
  cases found
  rw [MappedEntry.Confines, if_pos rfl]
  decide

/-- A number of four bits is written as a whole byte, and the truth value in the bit after
it is lost; the truth value is written as one bit, and the number that starts inside its
byte changes with it. -/
theorem write_nibbleLevel_clears_flag :
    ∃ after, resolve (some nibbleDictionary) 0 defaultTimeout (sessionWith nibbleSlave) =
        .ok nibbleMap after ∧
      [nibbleLevel, nibbleFlag, nibbleCode] = nibbleMap.entriesOf .outputs ∧
      (nibbleMap.write 0 [0x10, 0] ⟨0x7000, 1⟩ ⟨.u8, .int 0⟩ = .ok [0x00, 0] ∧
        nibbleMap.find? ⟨0x7000, 1⟩ = some nibbleLevel ∧ nibbleLevel.stopBit = 4 ∧
        Bytes.bit? [0x10, 0] 4 = some true ∧ Bytes.bit? [0x00, 0] 4 = some false ∧
        nibbleFlag.decode [0x10, 0] = .ok ⟨.bool, .bool true⟩ ∧
        nibbleFlag.decode [0x00, 0] = .ok ⟨.bool, .bool false⟩) ∧
      (nibbleMap.write 0 [0x00, 0] ⟨0x7000, 2⟩ ⟨.bool, .bool true⟩ = .ok [0x10, 0] ∧
        nibbleMap.find? ⟨0x7000, 2⟩ = some nibbleFlag ∧
        nibbleCode.decode [0x00, 0] = .ok ⟨.u8, .int 0⟩ ∧
        nibbleCode.decode [0x10, 0] = .ok ⟨.u8, .int 16⟩) := by
  obtain ⟨after, resolved⟩ := resolve_nibbleSlave
  refine ⟨after, resolved, rfl, ?_, ?_⟩
  · exact ⟨rfl, rfl, rfl, rfl, rfl, rfl, rfl⟩
  · exact ⟨rfl, rfl, rfl, rfl⟩

end Layout

end Fieldbus
