import Fieldbus.Proofs.FaultClass
import Fieldbus.Proofs.Pdo.Resolve
import Fieldbus.Proofs.Pdo.Write

/-!
# Refused writes

A write that is refused leaves the outputs as they were.  It is refused because its entry is not
mapped, is no output or does not fit the value, or because the value has no encoding.  Two writes
meet an accident instead: that of a text with an unpaired surrogate, and that of a truth value to
an entry without bits where the outputs end.  A refusal that cannot be worded is an accident too.
-/

namespace Fieldbus

namespace PdoMap

open Fieldbus.Action

variable {slave : Int} {map : PdoMap} {outputs : Bytes} {entry : EntryIndex} {value : Value}
  {info : MappedEntry} {fault : Fault}

/-- Write a value into outputs that are changed in place: the steps of a write, each of which may
be the last. -/
def overwrite (slave : Int) (map : PdoMap) (entry : EntryIndex) (value : Value) :
    Action Bytes Unit := do
  let (info, data) ← Action.ofExcept (map.checkWrite slave entry value)
  let outputs ← get
  let stop := info.byteOffset + info.byteCount
  if (outputs.length : Int) < stop then
    throw (.valueMismatch slave info.entry (.outside stop outputs.length))
  else
    match value.dataType, value.payload with
    | .bool, .bool truth => do
        let patched ← Action.ofExcept (patchAt outputs info.byteOffset
          (UInt8.ofNat (Nat.pow 2 info.bitOffset.toNat)) truth)
        set patched
    | _, _ => set (outputs.splice info.byteOffset stop data)

/-- A write in place puts the changed outputs in the place of the old ones, or fails before it has
changed any of them. -/
theorem overwrite_eq (slave : Int) (map : PdoMap) (outputs : Bytes) (entry : EntryIndex)
    (value : Value) :
    map.overwrite slave entry value outputs =
      match map.write slave outputs entry value with
      | .ok changed => .ok () changed
      | .error fault => .error fault outputs := by
  obtain ⟨type, payload⟩ := value
  rw [overwrite, write]
  cases map.checkWrite slave entry ⟨type, payload⟩ with
  | error fault => rfl
  | ok accepted =>
      obtain ⟨info, data⟩ := accepted
      rw [Action.bind_of_ok (Action.ofExcept_ok (info, data) outputs)]
      dsimp only
      rw [Action.bind_of_ok (Action.get_apply outputs)]
      by_cases short : (outputs.length : Int) < info.byteOffset + info.byteCount
      · simp only [Bind.bind, Except.bind, if_pos short]
        rfl
      · simp only [Bind.bind, Except.bind, if_neg short]
        cases type with
        | bool =>
            cases payload with
            | bool truth =>
                simp only
                cases patchAt outputs info.byteOffset
                  (UInt8.ofNat (Nat.pow 2 info.bitOffset.toNat)) truth with
                | ok changed => rfl
                | error fault => rfl
            | _ => rfl
        | _ => rfl

/-- The classes of faults that a write is refused with. -/
def refusals : List FaultClass :=
  [.entryNotFound, .wrongDirection, .valueMismatch, .unsupportedValue]

/-- The entry is mapped to the outputs, and its type, if it is known, is that of the value. -/
structure Admits (map : PdoMap) (entry : EntryIndex) (value : Value) (info : MappedEntry) :
    Prop where
  found : map.find? entry = some info
  output : info.smType = .outputs
  typed : ∀ type, info.dataType = some type → type = value.dataType

/-- A write that meets an accident: nothing but the encoding of its text is missing, or the byte
of its truth value is the one after the outputs. -/
inductive Trips (map : PdoMap) (outputs : Bytes) (entry : EntryIndex) (value : Value) : Prop
  | text {info : MappedEntry} (admits : map.Admits entry value info)
      (unencodable : value.IsUnencodable) : Trips map outputs entry value
  | bit {info : MappedEntry} {truth : Bool} (admits : map.Admits entry value info)
      (isTruth : value = ⟨.bool, .bool truth⟩) (noBits : info.bitLength = 0)
      (atEnd : info.byteOffset = outputs.length) : Trips map outputs entry value

theorem Admits.checkWrite_eq (admits : map.Admits entry value info) (slave : Int) :
    map.checkWrite slave entry value =
      if value.dataType = .bool then (value.encode info.bitOffset).map (info, ·)
      else do
        let data ← value.encode 0
        if (data.length : Int) ≠ info.byteCount then
          throw (.valueMismatch slave entry (.size data.length info.byteCount))
        return (info, data) := by
  have agrees : info.dataType.filter (· ≠ value.dataType) = none := by
    rw [Option.filter_eq_none_iff]
    intro type known
    simpa using admits.typed type known
  rw [checkWrite, admits.found]
  simp only [admits.output, ne_eq, not_true_eq_false, if_false, agrees]

theorem Admits.checkWrite_of_isUnencodable (admits : map.Admits entry value info)
    (unencodable : value.IsUnencodable) (slave : Int) :
    map.checkWrite slave entry value = .error (.accident .encoding) := by
  have notTruth : value.dataType ≠ .bool := by
    rw [unencodable.1]
    decide
  rw [admits.checkWrite_eq, if_neg notTruth, unencodable.encode_eq]
  rfl

/-- A write is refused for its entry, or comes as far as the encoding of its value. -/
theorem refused_or_admits (slave : Int) (map : PdoMap) (entry : EntryIndex) (value : Value) :
    (∃ fault, map.checkWrite slave entry value = .error fault ∧ fault.faultClass ∈ refusals) ∨
      ∃ info, map.Admits entry value info := by
  cases found : map.find? entry with
  | none =>
      refine Or.inl ⟨.entryNotFound slave entry, ?_, by simp [Fault.faultClass, refusals]⟩
      simp only [checkWrite, found]
  | some info =>
      by_cases output : info.smType = .outputs
      · cases agrees : info.dataType.filter (· ≠ value.dataType) with
        | some type =>
            refine Or.inl ⟨.valueMismatch slave entry (.type type value.dataType), ?_,
              by simp [Fault.faultClass, refusals]⟩
            simp only [checkWrite, found, output, ne_eq, not_true_eq_false, if_false, agrees]
        | none =>
            refine Or.inr ⟨info, found, output, ?_⟩
            intro type known
            simpa using Option.filter_eq_none_iff.mp agrees type known
      · refine Or.inl ⟨.wrongDirection slave entry info.smType, ?_,
          by simp [Fault.faultClass, refusals]⟩
        simp only [checkWrite, found, ne_eq, output, not_false_eq_true, if_true]

/-- A write that comes so far is refused for the encoding of its value or for its size. -/
theorem Admits.encode_of_refused (admits : map.Admits entry value info)
    (refused : map.checkWrite slave entry value = .error fault) :
    fault.faultClass = .valueMismatch ∨ ∃ bitOffset, value.encode bitOffset = .error fault := by
  rw [admits.checkWrite_eq] at refused
  by_cases isTruth : value.dataType = .bool
  · rw [if_pos isTruth] at refused
    exact Or.inr ⟨info.bitOffset, except_map_eq_error_iff.mp refused⟩
  · rw [if_neg isTruth] at refused
    rcases except_bind_eq_error_iff.mp refused with unwritten | ⟨data, _, misfit⟩
    · exact Or.inr ⟨0, unwritten⟩
    · split at misfit
      · cases misfit
        exact Or.inl rfl
      · cases misfit

/-- A check fails in order, or for a text that has no encoding. -/
theorem checkWrite_error_cases (refused : map.checkWrite slave entry value = .error fault) :
    fault.faultClass ∈ refusals ∨
      ∃ info, map.Admits entry value info ∧ value.IsUnencodable := by
  rcases refused_or_admits slave map entry value with ⟨cause, same, orderly⟩ | ⟨info, admits⟩
  · cases refused.symm.trans same
    exact Or.inl orderly
  · rcases admits.encode_of_refused refused with mismatch | ⟨bitOffset, unwritten⟩
    · exact Or.inl (by simp [mismatch, refusals])
    · rcases Value.encode_error_cases unwritten with ⟨objection, rfl⟩ | ⟨_, unencodable⟩
      · exact Or.inl (by simp [Fault.faultClass, refusals])
      · exact Or.inr ⟨info, admits, unencodable⟩

theorem patchAt_end (outputs : Bytes) (mask : UInt8) (truth : Bool) :
    patchAt outputs outputs.length mask truth = .error (.accident .position) := by
  have notBefore : ¬ (outputs.length : Int) < 0 := by omega
  simp only [patchAt, if_neg notBefore, Int.toNat_natCast, List.getElem?_length]

/-- A checked write to an entry that ends after the outputs is refused for its size. -/
theorem write_of_short {data : Bytes}
    (accepted : map.checkWrite slave entry value = .ok (info, data))
    (short : (outputs.length : Int) < info.byteOffset + info.byteCount) :
    map.write slave outputs entry value = .error (.valueMismatch slave info.entry
      (.outside (info.byteOffset + info.byteCount) outputs.length)) := by
  rw [write, accepted]
  simp only [Bind.bind, Except.bind, if_pos short]
  rfl

section Gapless

variable (gapless : map.Gapless)
include gapless

/-- A write that does not fail in order trips. -/
theorem trips_of_write (failed : map.write slave outputs entry value = .error fault)
    (disorderly : fault.faultClass ∉ refusals) : map.Trips outputs entry value := by
  cases checked : map.checkWrite slave entry value with
  | error cause =>
      have same : map.write slave outputs entry value = .error cause := by
        rw [write, checked]
        rfl
      cases failed.symm.trans same
      obtain ⟨info, admits, unencodable⟩ :=
        (checkWrite_error_cases checked).resolve_left disorderly
      exact .text admits unencodable
  | ok accepted =>
      obtain ⟨info, data⟩ := accepted
      obtain ⟨found, output, typed, shape⟩ := checkWrite_ok checked
      have inside : ¬ (outputs.length : Int) < info.byteOffset + info.byteCount := by
        intro short
        cases failed.symm.trans (write_of_short checked short)
        exact disorderly (by simp [Fault.faultClass, refusals])
      have unwritten : ¬ ∃ changed, map.write slave outputs entry value = .ok changed := by
        rintro ⟨changed, written⟩
        cases failed.symm.trans written
      rw [exists_write_iff gapless checked] at unwritten
      have atEnd : value.dataType = .bool ∧ (outputs.length : Int) ≤ info.byteOffset := by
        by_contra within
        refine unwritten ⟨by omega, ?_⟩
        intro isTruth
        by_contra outside
        exact within ⟨isTruth, by omega⟩
      obtain ⟨truth, isTruth, payload⟩ := shape.resolve_right fun other => other.1 atEnd.1
      have length := gapless.lengths info (mem_entries_of_find? found).1
      have reached := atEnd.2
      rw [MappedEntry.byteCount, byteCount] at inside
      exact .bit ⟨found, output, typed⟩ (by rw [← isTruth, ← payload]) (by omega) (by omega)

theorem Trips.write_eq (trips : map.Trips outputs entry value) (slave : Int) :
    ∃ cause, map.write slave outputs entry value = .error (.accident cause) := by
  cases trips with
  | text admits unencodable =>
      refine ⟨.encoding, ?_⟩
      rw [write, admits.checkWrite_of_isUnencodable unencodable]
      rfl
  | @bit info truth admits isTruth noBits atEnd =>
      subst isTruth
      have offsets := gapless.offsets info (mem_entries_of_find? admits.found).1
      have within : 0 ≤ info.bitOffset ∧ info.bitOffset ≤ 7 := by omega
      have inside : ¬ (outputs.length : Int) < info.byteOffset + info.byteCount := by
        rw [MappedEntry.byteCount, byteCount, noBits]
        omega
      refine ⟨.position, ?_⟩
      rw [write, admits.checkWrite_eq, if_pos rfl, Value.encode]
      simp only [DataType.storage?, if_pos within, Except.map, Bind.bind, Except.bind,
        if_neg inside]
      rw [atEnd, patchAt_end]

/-- A write that fails is refused in order unless it trips. -/
theorem faultClass_mem_refusals_iff (failed : map.write slave outputs entry value = .error fault) :
    fault.faultClass ∈ refusals ↔ ¬ map.Trips outputs entry value := by
  constructor
  · rintro orderly trips
    obtain ⟨cause, accident⟩ := trips.write_eq gapless slave
    cases accident.symm.trans failed
    simp [Fault.faultClass, refusals] at orderly
  · intro steady
    by_contra disorderly
    exact steady (trips_of_write gapless failed disorderly)

end Gapless

/-- Write a value into outputs that are changed in place, and word the fault if that fails. -/
def overwriteWithin (limits : WritingLimits) (slave : Int) (map : PdoMap) (entry : EntryIndex)
    (value : Value) : Action Bytes Unit :=
  Action.mapFault (Fault.raised limits) (map.overwrite slave entry value)

theorem overwriteWithin_eq (limits : WritingLimits) (slave : Int) (map : PdoMap) (outputs : Bytes)
    (entry : EntryIndex) (value : Value) :
    map.overwriteWithin limits slave entry value outputs =
      match map.writeWithin limits slave outputs entry value with
      | .ok changed => .ok () changed
      | .error fault => .error fault outputs := by
  rw [overwriteWithin, mapFault, overwrite_eq, writeWithin]
  cases map.write slave outputs entry value with
  | ok changed => rfl
  | error fault => rfl

end PdoMap

namespace Layout

variable {ε : Type} [Engine ε] {dictionary : Option ObjectDictionary} {slave : Int}
  {timeout : Number} {session after : Session ε} {map : PdoMap}

/-- A write on a map that was laid out succeeds or is refused in one of four ways, unless it trips
or its refusal cannot be worded, and outputs that are written in place are changed by a write that
succeeds only. -/
theorem write_orderly_iff (resolved : resolve dictionary slave timeout session = .ok map after)
    (limits : WritingLimits) (writer : Int) (outputs : Bytes) (entry : EntryIndex)
    (value : Value) :
    (((∃ changed, map.writeWithin limits writer outputs entry value = .ok changed) ∨
        ∃ fault, map.writeWithin limits writer outputs entry value = .error fault ∧
          fault.faultClass ∈ PdoMap.refusals) ↔
        ¬ map.Trips outputs entry value ∧
          ∀ fault, map.write writer outputs entry value = .error fault →
            fault.obstacle? limits = none) ∧
      (∀ changed, map.writeWithin limits writer outputs entry value = .ok changed →
        map.overwriteWithin limits writer entry value outputs = .ok () changed) ∧
      ∀ fault, map.writeWithin limits writer outputs entry value = .error fault →
        map.overwriteWithin limits writer entry value outputs = .error fault outputs := by
  have gapless := gapless_of_resolve resolved
  refine ⟨?_, ?_, ?_⟩
  · rw [PdoMap.writeWithin]
    cases written : map.write writer outputs entry value with
    | ok changed =>
        refine iff_of_true (Or.inl ⟨changed, rfl⟩) ⟨?_, by simp⟩
        intro trips
        obtain ⟨cause, accident⟩ := trips.write_eq gapless writer
        cases accident.symm.trans written
    | error fault =>
        have orderly_iff := PdoMap.faultClass_mem_refusals_iff gapless written
        cases hindered : fault.obstacle? limits with
        | none =>
            simp [Except.mapError, Fault.raised_of_none hindered, orderly_iff, hindered]
        | some accident =>
            simp [Except.mapError, Fault.raised_of_some hindered, hindered, Fault.faultClass,
              PdoMap.refusals]
  · intro changed written
    rw [PdoMap.overwriteWithin_eq, written]
  · intro fault refused
    rw [PdoMap.overwriteWithin_eq, refused]

/-- A slave that maps eight bits and then none. -/
def bitlessSlave : SimulatedSlave :=
  { SimulatedSlave.plain with
    mailbox := [
      (⟨0x1c00, 0⟩, [.data [3]]), (⟨0x1c00, 3⟩, [.data [3]]),
      (⟨0x1c12, 0⟩, [.data [1]]), (⟨0x1c12, 1⟩, [.data [0x00, 0x16]]),
      (⟨0x1600, 0⟩, [.data [2]]), (⟨0x1600, 1⟩, [.data (mappingWord 0x7000 1 8)]),
      (⟨0x1600, 2⟩, [.data (mappingWord 0x7000 2 0)])] }

def bitlessMap : PdoMap :=
  [⟨2, .outputs, [⟨0, 0x1600, 2, .text [],
    [⟨0, ⟨0x7000, 1⟩, 8, 0, 0, none, .outputs, .text []⟩,
      ⟨1, ⟨0x7000, 2⟩, 0, 1, 0, none, .outputs, .text []⟩]⟩]⟩]

theorem resolve_bitlessSlave :
    ∃ after, resolve none 0 defaultTimeout (sessionWith bitlessSlave) = .ok bitlessMap after := by
  apply Action.exists_ok_of_result?
  decide +kernel

/-- A number that is too great is refused, and a text without an encoding and a truth value after
the last byte trip; each leaves the byte of the outputs as it was. -/
theorem write_orderly_iff_bitlessSlave :
    ∃ after, resolve none 0 defaultTimeout (sessionWith bitlessSlave) = .ok bitlessMap after ∧
      ¬ bitlessMap.Trips [7] ⟨0x7000, 1⟩ ⟨.u8, .int 256⟩ ∧
      bitlessMap.Trips [7] ⟨0x7000, 1⟩ ⟨.string, .text [.surrogate 0]⟩ ∧
      bitlessMap.Trips [7] ⟨0x7000, 2⟩ ⟨.bool, .bool true⟩ ∧
      bitlessMap.overwriteWithin .unlimited 0 ⟨0x7000, 1⟩ ⟨.u8, .int 256⟩ [7] = .error
        (.codec (.unsupportedValue ⟨.u8, .int 256⟩ .outOfRange)) [7] ∧
      bitlessMap.overwriteWithin .unlimited 0 ⟨0x7000, 1⟩ ⟨.string, .text [.surrogate 0]⟩ [7] =
        .error (.accident .encoding) [7] ∧
      bitlessMap.overwriteWithin .unlimited 0 ⟨0x7000, 2⟩ ⟨.bool, .bool true⟩ [7] =
        .error (.accident .position) [7] := by
  obtain ⟨after, resolved⟩ := resolve_bitlessSlave
  have great : bitlessMap.writeWithin .unlimited 0 [7] ⟨0x7000, 1⟩ ⟨.u8, .int 256⟩ =
      .error (.codec (.unsupportedValue ⟨.u8, .int 256⟩ .outOfRange)) := rfl
  have unwritten : bitlessMap.writeWithin .unlimited 0 [7] ⟨0x7000, 1⟩
      ⟨.string, .text [.surrogate 0]⟩ = .error (.accident .encoding) := rfl
  have beyond : bitlessMap.writeWithin .unlimited 0 [7] ⟨0x7000, 2⟩ ⟨.bool, .bool true⟩ =
      .error (.accident .position) := rfl
  have first := write_orderly_iff resolved .unlimited 0 [7] ⟨0x7000, 1⟩ ⟨.u8, .int 256⟩
  have second := write_orderly_iff resolved .unlimited 0 [7] ⟨0x7000, 1⟩
    ⟨.string, .text [.surrogate 0]⟩
  have third := write_orderly_iff resolved .unlimited 0 [7] ⟨0x7000, 2⟩ ⟨.bool, .bool true⟩
  refine ⟨after, resolved, ?_, ?_, ?_, first.2.2 _ great, second.2.2 _ unwritten,
    third.2.2 _ beyond⟩
  · exact (first.1.mp (Or.inr ⟨_, great, by decide⟩)).1
  · by_contra steady
    obtain ⟨_, written⟩ | ⟨_, refused, orderly⟩ := second.1.mpr ⟨steady, by simp⟩
    · cases unwritten.symm.trans written
    · cases unwritten.symm.trans refused
      revert orderly
      decide
  · by_contra steady
    obtain ⟨_, written⟩ | ⟨_, refused, orderly⟩ := third.1.mpr ⟨steady, by simp⟩
    · cases beyond.symm.trans written
    · cases beyond.symm.trans refused
      revert orderly
      decide

end Layout

end Fieldbus
