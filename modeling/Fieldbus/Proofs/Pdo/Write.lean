import Fieldbus.Proofs.Bits
import Fieldbus.Proofs.Outcome
import Fieldbus.Proofs.Pdo.Gapless

/-!
# Writes of mapped values

What a write that succeeds tells of its entry and its value, and which bits of the outputs
it changes.  A truth value is one bit; every other value is the whole bytes of its entry,
also where the entry itself starts or ends inside a byte.
-/

namespace Fieldbus

namespace Bytes

variable {bytes : Bytes} {place : Nat} {byte : UInt8}

/-- The bits of a patched byte: the one of the mask is the truth value. -/
theorem testBit_patch (byte : UInt8) (truth : Bool) {offset position : Nat}
    (offsetSmall : offset < 8) (positionSmall : position < 8) :
    (PdoMap.patch byte (UInt8.ofNat (2 ^ offset)) truth).toNat.testBit position =
      if position = offset then truth else byte.toNat.testBit position := by
  have mask : (UInt8.ofNat (2 ^ offset)).toNat = 2 ^ offset := by
    apply UInt8.toNat_ofNat_of_lt'
    exact Nat.pow_lt_pow_right (by decide) offsetSmall
  cases truth with
  | true =>
      rw [PdoMap.patch, if_pos rfl, UInt8.toNat_or, Nat.testBit_or, mask, Nat.testBit_two_pow]
      by_cases same : position = offset
      · simp [same]
      · simp [same, Ne.symm same]
  | false =>
      have flipped : (~~~(UInt8.ofNat (2 ^ offset))).toNat = 2 ^ 8 - (2 ^ offset + 1) := by
        rw [UInt8.toNat_not, mask]
        show 256 - 1 - 2 ^ offset = 256 - (2 ^ offset + 1)
        omega
      rw [PdoMap.patch, if_neg (by decide), UInt8.toNat_and, Nat.testBit_and, flipped,
        Nat.testBit_two_pow_sub_succ (Nat.pow_lt_pow_right (by decide) offsetSmall),
        Nat.testBit_two_pow]
      by_cases same : position = offset
      · simp [same]
      · simp [same, Ne.symm same, positionSmall]

/-- Replacing a byte by one that differs in one bit changes that bit only. -/
theorem bit?_set_patch (found : bytes[place]? = some byte) (truth : Bool) {offset : Nat}
    (offsetSmall : offset < 8) (index : Nat) :
    bit? (bytes.set place (PdoMap.patch byte (UInt8.ofNat (2 ^ offset)) truth)) index =
      if index = 8 * place + offset then some truth else bytes.bit? index := by
  have inside := (List.getElem?_eq_some_iff.mp found).1
  rw [bit?, bit?, List.getElem?_set]
  by_cases samePlace : place = index / 8
  · subst samePlace
    rw [if_pos rfl, if_pos inside, found, Option.map_some, Option.map_some,
      testBit_patch byte truth offsetSmall (Nat.mod_lt index (by decide))]
    by_cases sameBit : index % 8 = offset
    · rw [if_pos sameBit, if_pos (by omega)]
    · rw [if_neg sameBit, if_neg (by omega)]
  · rw [if_neg samePlace, if_neg (by omega)]

end Bytes

theorem Value.exists_truth_of_encode {value : Value} {bitOffset : Int}
    (isTruth : value.dataType = .bool)
    (accepted : ∀ fault, value.encode bitOffset ≠ .error fault) :
    ∃ truth, value.payload = .bool truth := by
  cases payload : value.payload with
  | bool truth => exact ⟨truth, rfl⟩
  | _ =>
      refine absurd ?_ (accepted (.codec (.unsupportedValue value .needsBool)))
      rw [encode, isTruth]
      simp only [DataType.storage?, payload]

namespace MappedEntry

/-- The bits that a write of a value changes: one bit for a truth value, else all bytes
that the length of the entry calls for. -/
def Writes (info : MappedEntry) (value : Value) (bit : Nat) : Prop :=
  if value.dataType = .bool then (bit : Int) = info.firstBit
  else info.byteOffset ≤ (bit / 8 : Nat) ∧ ((bit / 8 : Nat) : Int) < info.byteOffset + info.byteCount

end MappedEntry

namespace PdoMap

variable {slave : Int} {map : PdoMap} {outputs changed : Bytes} {entry : EntryIndex}
  {value : Value} {info : MappedEntry}

theorem checkWrite_ok {data : Bytes}
    (accepted : map.checkWrite slave entry value = .ok (info, data)) :
    map.find? entry = some info ∧ info.smType = .outputs ∧
      (∀ type, info.dataType = some type → type = value.dataType) ∧
      ((∃ truth, value.dataType = .bool ∧ value.payload = .bool truth) ∨
        (value.dataType ≠ .bool ∧ value.encode 0 = .ok data ∧
          (data.length : Int) = info.byteCount)) := by
  rw [checkWrite] at accepted
  split at accepted
  · cases accepted
  · rename_i mapped found
    by_cases direction : mapped.smType = .outputs
    · rw [if_neg (by simpa using direction)] at accepted
      split at accepted
      · cases accepted
      · rename_i typed
        have agrees : ∀ type, mapped.dataType = some type → type = value.dataType := by
          intro type known
          simpa [known] using typed
        split at accepted
        · rename_i isTruth
          obtain ⟨truth, payload⟩ : ∃ truth, value.payload = .bool truth := by
            have encodes : ∀ fault, value.encode mapped.bitOffset ≠ .error fault := by
              intro fault refused
              rw [refused] at accepted
              cases accepted
            exact Value.exists_truth_of_encode isTruth encodes
          cases encoded : value.encode mapped.bitOffset with
          | error fault =>
              rw [encoded] at accepted
              cases accepted
          | ok bytes =>
              rw [encoded] at accepted
              cases accepted
              exact ⟨found, direction, agrees, Or.inl ⟨truth, isTruth, payload⟩⟩
        · rename_i notTruth
          obtain ⟨bytes, encoded, sized⟩ := Action.except_bind_eq_ok_iff.mp accepted
          split at sized
          · cases sized
          · rename_i fits
            cases sized
            exact ⟨found, direction, agrees, Or.inr ⟨notTruth, encoded, by simpa using fits⟩⟩
    · rw [if_pos (by simpa using direction)] at accepted
      cases accepted

theorem patchAt_ok {place : Nat} {mask : UInt8} {truth : Bool}
    (patched : patchAt outputs place mask truth = .ok changed) :
    ∃ byte, outputs[place]? = some byte ∧
      changed = outputs.set place (patch byte mask truth) := by
  rw [patchAt] at patched
  have notBefore : ¬ (place : Int) < 0 := by omega
  simp only [if_neg notBefore, Int.toNat_natCast] at patched
  cases found : outputs[place]? with
  | none => simp [found] at patched
  | some byte =>
      rw [found] at patched
      cases patched
      exact ⟨byte, rfl, rfl⟩

theorem patchAt_of_getElem? {place : Nat} {mask byte : UInt8} {truth : Bool}
    (holds : outputs[place]? = some byte) :
    patchAt outputs place mask truth = .ok (outputs.set place (patch byte mask truth)) := by
  have notBefore : ¬ (place : Int) < 0 := by omega
  rw [patchAt]
  simp only [if_neg notBefore, Int.toNat_natCast, holds]

/-- A write that succeeds patches one bit for a truth value, and otherwise replaces the
bytes of the entry. -/
theorem write_ok (written : map.write slave outputs entry value = .ok changed) :
    ∃ info, map.find? entry = some info ∧ info.smType = .outputs ∧
      info.byteOffset + info.byteCount ≤ outputs.length ∧
      ((∃ truth, value.dataType = .bool ∧ value.payload = .bool truth ∧
          patchAt outputs info.byteOffset (UInt8.ofNat (2 ^ info.bitOffset.toNat)) truth =
            .ok changed) ∨
        (∃ data : Bytes, value.dataType ≠ .bool ∧ value.encode 0 = .ok data ∧
          (data.length : Int) = info.byteCount ∧
          changed = outputs.splice info.byteOffset (info.byteOffset + info.byteCount) data)) := by
  rw [write] at written
  obtain ⟨⟨info, data⟩, checked, rest⟩ := Action.except_bind_eq_ok_iff.mp written
  obtain ⟨found, direction, _, shape⟩ := checkWrite_ok checked
  simp only at rest
  split at rest
  · cases rest
  · rename_i inside
    refine ⟨info, found, direction, by omega, ?_⟩
    rcases shape with ⟨truth, isTruth, payload⟩ | ⟨notTruth, encoded, fits⟩
    · rw [isTruth, payload] at rest
      exact Or.inl ⟨truth, isTruth, payload, rest⟩
    · split at rest
      · rename_i isTruth _
        exact absurd isTruth notTruth
      · cases rest
        exact Or.inr ⟨data, notTruth, encoded, fits, rfl⟩

section Frame

variable (gapless : map.Gapless)
include gapless

theorem bit?_of_write (written : map.write slave outputs entry value = .ok changed) :
    ∃ info ∈ map.entriesOf .outputs, map.find? entry = some info ∧
      changed.length = outputs.length ∧
      ∀ bit, ¬ info.Writes value bit → changed.bit? bit = outputs.bit? bit := by
  obtain ⟨info, found, direction, inside, shape⟩ := write_ok written
  have member : info ∈ map.entriesOf .outputs := by
    rw [← direction]
    exact gapless.mem_entriesOf (mem_entries_of_find? found).1
  obtain ⟨byteOffset, bitOffset, bitLength, byteEq, bitEq, small, lengthEq⟩ :=
    gapless.exists_place member
  refine ⟨info, member, found, ?_⟩
  rcases shape with ⟨truth, isTruth, _, patched⟩ | ⟨data, notTruth, _, fits, rfl⟩
  · rw [byteEq, bitEq, Int.toNat_natCast] at patched
    obtain ⟨byte, holds, rfl⟩ := patchAt_ok patched
    refine ⟨List.length_set, ?_⟩
    intro bit outside
    rw [Bytes.bit?_set_patch holds truth small, if_neg]
    rw [MappedEntry.Writes, if_pos isTruth, MappedEntry.firstBit, byteEq, bitEq] at outside
    omega
  · obtain ⟨size, sizeEq⟩ : ∃ size : Nat, info.byteCount = size := ⟨data.length, fits.symm⟩
    rw [byteEq, sizeEq] at inside
    rw [sizeEq] at fits
    have start : byteOffset ≤ byteOffset + size := Nat.le_add_right _ _
    have stop : byteOffset + size ≤ outputs.length := by omega
    have whole : data.length = byteOffset + size - byteOffset := by omega
    rw [byteEq, sizeEq, ← Int.natCast_add]
    refine ⟨Bytes.length_splice start stop whole, ?_⟩
    intro bit outside
    rw [MappedEntry.Writes, if_neg notTruth, byteEq, sizeEq] at outside
    rw [Bytes.bit?, Bytes.bit?, Bytes.getElem?_splice start stop whole, if_neg (by omega)]

/-- An accepted value can be written exactly if the outputs reach to the end of the entry,
and to the byte of a truth value. -/
theorem exists_write_iff {data : Bytes}
    (accepted : map.checkWrite slave entry value = .ok (info, data)) :
    (∃ changed, map.write slave outputs entry value = .ok changed) ↔
      info.byteOffset + info.byteCount ≤ outputs.length ∧
        (value.dataType = .bool → info.byteOffset < outputs.length) := by
  obtain ⟨found, direction, _, shape⟩ := checkWrite_ok accepted
  have member : info ∈ map.entriesOf .outputs := by
    rw [← direction]
    exact gapless.mem_entriesOf (mem_entries_of_find? found).1
  obtain ⟨byteOffset, bitOffset, _, byteEq, bitEq, _, _⟩ := gapless.exists_place member
  constructor
  · rintro ⟨changed, written⟩
    obtain ⟨other, otherFound, _, inside, patches⟩ := write_ok written
    have same : other = info := Option.some.inj (otherFound.symm.trans found)
    subst same
    refine ⟨inside, ?_⟩
    intro isTruth
    rcases patches with ⟨truth, _, _, patched⟩ | ⟨_, notTruth, _⟩
    · rw [byteEq] at patched
      obtain ⟨byte, holds, _⟩ := patchAt_ok patched
      have within := (List.getElem?_eq_some_iff.mp holds).1
      omega
    · exact absurd isTruth notTruth
  · rintro ⟨inside, reaches⟩
    rw [write, accepted]
    simp only [Bind.bind, Except.bind, if_neg (show ¬ (outputs.length : Int) <
      info.byteOffset + info.byteCount by omega)]
    rcases shape with ⟨truth, isTruth, payload⟩ | ⟨notTruth, _⟩
    · have within : byteOffset < outputs.length := by
        have reached := reaches isTruth
        omega
      rw [isTruth, payload, byteEq]
      refine ⟨_, patchAt_of_getElem? (List.getElem?_eq_getElem within)⟩
    · split
      · rename_i isTruth _
        exact absurd isTruth notTruth
      · exact ⟨_, rfl⟩

end Frame

end PdoMap

end Fieldbus
