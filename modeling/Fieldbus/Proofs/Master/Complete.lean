import Fieldbus.Proofs.Master.Dictionary
import Fieldbus.Proofs.Master.Slots
import Mathlib.Data.List.SplitLengths

/-!
# Reading objects at once

Reading an object with one upload against reading its entries one by one, for a slave that
holds one datum of the right size for each slot.  Both read the same values for all such
data exactly if the cursor keeps up with the slots, or the object is never read at once.
-/

namespace Fieldbus

namespace Master

open Fieldbus.Action

/-- The engine has the slave, and its mailbox holds for each slot of the object one datum of
the size of the slot, nothing else of the object, and no answer of its own for the whole. -/
def HoldsSlots (engine : MemoryEngine) (slave : Int) (object : ObjectInfo) : Prop :=
  ∃ place found parts, engine.segment.place? slave = some place ∧
    engine.segment.slave? slave = some found ∧
    found.complete.get? object.index = none ∧
    SimulatedSlave.HoldsObject found.mailbox object.index parts ∧
    parts.map (fun part : Bytes => (part.length : Int)) =
      object.entries.map fun info => byteCount info.bitLength

/-- If the object is read at once, then with one item for each slot, and every value that is
read for a slot is the one that is read for its entry. -/
def Faithful (master : Master MemoryEngine) (slave : Int) (object : ObjectInfo)
    (timeout : Option Number) : Prop :=
  ∀ values after, readComplete slave object.index true timeout master = .ok values after →
    values.length = object.entries.length ∧
      ∀ (place : Nat) (value : Value), values[place]? = some (some value) →
        ∃ later, readEntry slave ⟨object.index, place⟩ timeout master = .ok value later

/-- The object is never read at once: no data have the size of one of its slots, or the codec
has no values for a slot that counts as decodable. -/
def NeverRead (object : ObjectInfo) : Prop :=
  ∃ info ∈ object.entries, byteCount info.bitLength < 0 ∨
    (info.isDecodable = true ∧ ¬ Value.Supports info.dataType info.bitLength)

section Uploads

variable {master : Master MemoryEngine} {slave : Int} {place : Nat} {found : SimulatedSlave}
  {entry : EntryIndex} {complete : Bool} {size : Int} {timeout : Option Number}
  {content : Bytes}

theorem timeoutOr_keeps {ε : Type} {master after : Master ε} {number : Number}
    (given : timeoutOr timeout master = .ok number after) : after = master := by
  cases timeout with
  | some known =>
      cases given
      rfl
  | none =>
      obtain ⟨_, _, got, taken⟩ := bind_eq_ok_iff.mp given
      cases got
      obtain ⟨seconds, between, checked, returned⟩ := bind_eq_ok_iff.mp taken
      cases returned
      rw [ofAccident] at checked
      cases outcome : (master.config.sdoTimeout).mapError Fault.accident with
      | ok value =>
          rw [outcome] at checked
          cases checked
          rfl
      | error fault =>
          rw [outcome] at checked
          cases checked

/-- An upload succeeds exactly if there is a timeout, the upload takes a time in range, and
the answer of the slave is data. -/
theorem exists_upload_iff (located : master.engine.segment.place? slave = some place)
    (present : master.engine.segment.slave? slave = some found) :
    (∃ after, upload slave entry complete size timeout master = .ok content after) ↔
      (∃ number, timeoutOr timeout master = .ok number master) ∧
        (∃ segment, Segment.passUpload master.engine.segment = .ok () segment) ∧
        (found.answer entry complete).1 = .data content := by
  rw [← MemoryEngine.exists_upload_iff located present]
  constructor
  · rintro ⟨after, uploaded⟩
    obtain ⟨number, between, given, asked⟩ := bind_eq_ok_iff.mp uploaded
    cases timeoutOr_keeps given
    obtain ⟨session, inner, _⟩ := within_eq_ok_iff.mp asked
    obtain ⟨engine, answered, _⟩ := within_eq_ok_iff.mp inner
    exact ⟨⟨number, given⟩, engine, answered⟩
  · rintro ⟨⟨number, given⟩, engine, answered⟩
    rw [upload, bind_of_ok given]
    refine ⟨_, within_eq_ok_iff.mpr ⟨_, within_eq_ok_iff.mpr ⟨engine, answered, rfl⟩, rfl⟩⟩

end Uploads

section Reads

variable {master : Master MemoryEngine} {slave : Int} {object : ObjectInfo} {found : SimulatedSlave}
  {timeout : Option Number} {value : Value} {values : List (Option Value)} {index : Int}

theorem findObject?_of_object {dictionary : ObjectDictionary}
    (known : dictionary.object slave index = .ok object) :
    dictionary.findObject? slave index = some object := by
  rw [ObjectDictionary.object] at known
  split at known
  · cases known
  · split at known
    · rename_i other same
      cases known
      exact same
    · cases known

theorem entry_of_object {dictionary : ObjectDictionary} {place : Nat} {info : EntryInfo}
    (known : dictionary.object slave index = .ok object)
    (slot : object.entries[place]? = some info) :
    dictionary.entry slave ⟨index, place⟩ = .ok info := by
  have same := findObject?_of_object known
  obtain ⟨objects, listed, _⟩ := Option.bind_eq_some_iff.mp same
  have entry : dictionary.entryAt? slave ⟨index, place⟩ = some info := by
    rw [ObjectDictionary.entryAt?, same, Option.bind_some, ObjectInfo.entryAt?,
      if_pos (Int.natCast_nonneg place), Int.toNat_natCast]
    exact slot
  rw [ObjectDictionary.entry, listed]
  simp only [entry]

/-- For slots that the codec supports, the length of the data is the length of the slot. -/
theorem bitLength_of_supports {type : Option DataType} {bitLength : Int} {part : Bytes}
    (supports : Value.Supports type bitLength) (sized : (part.length : Int) = byteCount bitLength) :
    (if hasVariableSize type = true then (part.length : Int) * 8 else bitLength) = bitLength := by
  obtain ⟨known, storage, rfl, stored, fits⟩ := supports
  split
  · rename_i isVariable
    have notTruth : storage ≠ .truth := by
      rintro rfl
      rw [DataType.storage?_eq_truth_iff.mp stored] at isVariable
      exact absurd isVariable (by decide)
    have aligned := fits.aligned notTruth
    rw [sized, byteCount]
    omega
  · rfl

variable {place : Nat}

theorem exists_readEntry_iff {position : Nat} {info : EntryInfo} {part : Bytes}
    (located : master.engine.segment.place? slave = some position)
    (present : master.engine.segment.slave? slave = some found)
    (known : master.dictionary.object slave object.index = .ok object)
    (slot : object.entries[place]? = some info) (addressed : info.entry = ⟨object.index, place⟩)
    (decodable : info.isDecodable = true)
    (supports : Value.Supports info.dataType info.bitLength)
    (answered : (found.answer ⟨object.index, place⟩ false).1 = .data part)
    (sized : (part.length : Int) = byteCount info.bitLength) :
    (∃ later, readEntry slave ⟨object.index, place⟩ timeout master = .ok value later) ↔
      (∃ number, timeoutOr timeout master = .ok number master) ∧
        (∃ segment, Segment.passUpload master.engine.segment = .ok () segment) ∧
        Value.decode info.dataType info.bitLength part 0 = .ok value := by
  have looked : Action.ofExcept (master.dictionary.entry slave ⟨object.index, place⟩) master =
      .ok info master := by
    rw [entry_of_object known slot, ofExcept_ok]
  rw [readEntry, bind_of_ok (get_apply master), bind_of_ok looked, if_neg (by simp [decodable]), addressed]
  constructor
  · rintro ⟨later, read⟩
    obtain ⟨raw, between, uploaded, decoded⟩ := bind_eq_ok_iff.mp read
    obtain ⟨given, passed, same⟩ := (exists_upload_iff located present).mp ⟨between, uploaded⟩
    cases answered.symm.trans same
    refine ⟨given, passed, ?_⟩
    rw [bitLength_of_supports supports sized] at decoded
    cases outcome : Value.decode info.dataType info.bitLength part 0 with
    | ok other =>
        rw [outcome] at decoded
        cases decoded
        rfl
    | error fault =>
        rw [outcome] at decoded
        cases decoded
  · rintro ⟨given, passed, decoded⟩
    obtain ⟨between, uploaded⟩ : ∃ between, upload slave ⟨object.index, place⟩ false
        (byteCount info.bitLength) timeout master = .ok part between :=
      (exists_upload_iff located present).mpr ⟨given, passed, answered⟩
    refine ⟨between, ?_⟩
    rw [bind_of_ok uploaded, bitLength_of_supports supports sized, decoded]
    rfl

/-- Reading an object at once succeeds exactly if the upload does and its slots decode. -/
theorem exists_readComplete_iff {position : Nat}
    (located : master.engine.segment.place? slave = some position)
    (present : master.engine.segment.slave? slave = some found)
    (known : master.dictionary.object slave object.index = .ok object) :
    (∃ after, readComplete slave object.index true timeout master = .ok values after) ↔
      (∃ number, timeoutOr timeout master = .ok number master) ∧
        (∃ segment, Segment.passUpload master.engine.segment = .ok () segment) ∧
        ∃ raw, (found.answer ⟨object.index, 0⟩ true).1 = .data raw ∧
          decodeSlots raw 0 object.entries = .ok values := by
  have looked : Action.ofExcept (master.dictionary.object slave object.index) master =
      .ok object master := by
    rw [known, ofExcept_ok]
  rw [readComplete, bind_of_ok (get_apply master), bind_of_ok looked]
  constructor
  · rintro ⟨after, read⟩
    obtain ⟨raw, between, uploaded, rest⟩ := bind_eq_ok_iff.mp read
    obtain ⟨given, passed, answered⟩ := (exists_upload_iff located present).mp ⟨between, uploaded⟩
    refine ⟨given, passed, raw, answered, ?_⟩
    obtain ⟨decoded, later, sliced, returned⟩ := bind_eq_ok_iff.mp rest
    rw [if_pos (by simp)] at returned
    cases returned
    cases outcome : decodeSlots raw 0 object.entries with
    | ok other =>
        rw [outcome] at sliced
        cases sliced
        rfl
    | error fault =>
        rw [outcome] at sliced
        cases sliced
  · rintro ⟨given, passed, raw, answered, decoded⟩
    obtain ⟨between, uploaded⟩ : ∃ between, upload slave ⟨object.index, 0⟩ true
        (completeSize object.entries) timeout master = .ok raw between :=
      (exists_upload_iff located present).mpr ⟨given, passed, answered⟩
    refine ⟨between, ?_⟩
    rw [bind_of_ok uploaded, decoded]
    rfl

end Reads

section Parts

variable {entries : List EntryInfo} {parts : List Bytes} {place : Nat} {info : EntryInfo}

theorem exists_part_of_slot
    (sized : parts.map (fun part : Bytes => (part.length : Int)) =
      entries.map fun info => byteCount info.bitLength)
    (slot : entries[place]? = some info) :
    ∃ part, parts[place]? = some part ∧ (part.length : Int) = byteCount info.bitLength := by
  have same := congrArg (fun lengths : List Int => lengths[place]?) sized
  simp only [List.getElem?_map, slot, Option.map_some] at same
  obtain ⟨part, found, length⟩ := Option.map_eq_some_iff.mp same
  exact ⟨part, found, length⟩

theorem slice_of_slot
    (sized : parts.map (fun part : Bytes => (part.length : Int)) =
      entries.map fun info => byteCount info.bitLength)
    (slot : entries[place]? = some info) {part : Bytes} (found : parts[place]? = some part) :
    Bytes.slice parts.flatten (Slots.start entries place)
      (Slots.start entries place + info.size : Nat) = part := by
  have lengths : parts.map List.length = entries.map EntryInfo.size := by
    have same := congrArg (List.map Int.toNat) sized
    rw [List.map_map, List.map_map] at same
    exact same
  have starts : ((parts.take place).map List.length).sum = Slots.start entries place := by
    rw [List.map_take, lengths, ← List.map_take]
    rfl
  have size : part.length = info.size := by
    have same := congrArg (fun sizes : List Nat => sizes[place]?) lengths
    simpa [slot, found] using same
  rw [← starts, ← size]
  exact Bytes.slice_flatten found

end Parts

section Laws

variable {master : Master MemoryEngine} {slave : Int} {object : ObjectInfo}
  {timeout : Option Number}

/-- An object whose slots keep in step is read at once as its entries are read. -/
theorem faithful_of_inStep (known : master.dictionary.object slave object.index = .ok object)
    (addressed : object.Addressed) (holds : HoldsSlots master.engine slave object)
    (inStep : Slots.InStep object.entries) : Faithful master slave object timeout := by
  intro values after read
  obtain ⟨position, found, parts, located, present, plain, holdsObject, sized⟩ := holds
  obtain ⟨given, passed, raw, answered, decoded⟩ :=
    (exists_readComplete_iff located present known).mp ⟨after, read⟩
  have flat : raw = parts.flatten := by
    have whole := SimulatedSlave.nextComplete_of_holds holdsObject plain
    rw [SimulatedSlave.answer, if_pos rfl, whole] at answered
    split at answered
    · cases answered
    · cases answered
      rfl
  subst flat
  obtain ⟨lengthEq, slots⟩ := Slots.decodeSlots_ok 0 decoded
  refine ⟨lengthEq, ?_⟩
  intro place value item
  have inside : place < object.entries.length := by
    rw [← lengthEq]
    exact (List.getElem?_eq_some_iff.mp item).1
  have slot := List.getElem?_eq_getElem inside
  rcases slots place _ slot with ⟨_, nothing⟩ | ⟨decodable, other, same, head⟩
  · cases nothing.symm.trans item
  · cases same.symm.trans item
    have cursor : Slots.cursor object.entries place = Slots.start object.entries place := by
      apply Slots.cursor_eq_start
      intro before first earlier listed undecodable
      exact inStep before place first _ earlier listed slot undecodable decodable
    obtain ⟨part, partAt, partSize⟩ := exists_part_of_slot sized slot
    rw [Slots.Decodes, Nat.zero_add, cursor, slice_of_slot sized slot partAt] at head
    obtain ⟨type, storage, typed, stored, fits, _⟩ := Value.fits_of_decode head
    have answeredEntry : (found.answer ⟨object.index, place⟩ false).1 = .data part := by
      rw [SimulatedSlave.answer, if_neg (by decide),
        SimulatedSlave.nextItem_of_only (holdsObject.held place part partAt)]
    exact (exists_readEntry_iff located present known slot (addressed place _ slot) decodable
      ⟨type, storage, typed, stored, fits⟩ answeredEntry partSize).mpr ⟨given, passed, head⟩

theorem faithful_of_neverRead (known : master.dictionary.object slave object.index = .ok object)
    (holds : HoldsSlots master.engine slave object) (never : NeverRead object) :
    Faithful master slave object timeout := by
  intro values after read
  obtain ⟨position, found, parts, located, present, plain, holdsObject, sized⟩ := holds
  obtain ⟨given, passed, raw, answered, decoded⟩ :=
    (exists_readComplete_iff located present known).mp ⟨after, read⟩
  obtain ⟨_, slots⟩ := Slots.decodeSlots_ok 0 decoded
  obtain ⟨info, member, refused⟩ := never
  obtain ⟨place, slot⟩ := List.getElem?_of_mem member
  exfalso
  rcases refused with negative | ⟨decodable, unsupported⟩
  · obtain ⟨part, _, partSize⟩ := exists_part_of_slot sized slot
    omega
  · rcases slots place info slot with ⟨undecodable, _⟩ | ⟨_, value, _, head⟩
    · rw [decodable] at undecodable
      cases undecodable
    · obtain ⟨type, storage, typed, stored, fits, _⟩ := Value.fits_of_decode head
      exact unsupported ⟨type, storage, typed, stored, fits⟩

end Laws

section Mark

variable {entries : List EntryInfo} {info : EntryInfo} {place : Nat}

/-- Data for the slots that are zero, but for one byte where the cursor is at a slot. -/
def markedBytes (entries : List EntryInfo) (place : Nat) : Bytes :=
  (Bytes.zeros (Slots.total entries)).set (Slots.cursor entries place) 1

def markedParts (entries : List EntryInfo) (place : Nat) : List Bytes :=
  (entries.map EntryInfo.size).splitLengths (markedBytes entries place)

theorem length_markedBytes (entries : List EntryInfo) (place : Nat) :
    (markedBytes entries place).length = Slots.total entries := by
  rw [markedBytes, List.length_set, Bytes.length_zeros]

theorem flatten_markedParts (entries : List EntryInfo) (place : Nat) :
    (markedParts entries place).flatten = markedBytes entries place := by
  apply List.flatten_splitLengths
  rw [length_markedBytes, Slots.total]

theorem sized_markedParts (place : Nat) (sizes : ∀ info ∈ entries, 0 ≤ byteCount info.bitLength) :
    (markedParts entries place).map (fun part : Bytes => (part.length : Int)) =
      entries.map fun info => byteCount info.bitLength := by
  have lengths : (markedParts entries place).map List.length = entries.map EntryInfo.size := by
    apply List.map_splitLengths_length
    rw [length_markedBytes, Slots.total]
  have cast := congrArg (List.map fun length : Nat => (length : Int)) lengths
  rw [List.map_map, List.map_map] at cast
  refine Eq.trans cast (List.map_congr_left ?_)
  intro info member
  exact Int.toNat_of_nonneg (sizes info member)

theorem exists_decodes_markedBytes {start : Nat} (decodable : info.isDecodable = true)
    (supports : Value.Supports info.dataType info.bitLength)
    (inside : start + info.size ≤ Slots.total entries) :
    ∃ value, Slots.Decodes (markedBytes entries place) start info value := by
  have size := EntryInfo.size_eq_of_isDecodable decodable
  have positive := EntryInfo.size_pos_of_isDecodable decodable
  have length : (Bytes.slice (markedBytes entries place) start
      (start + info.size : Nat)).length = info.size := by
    rw [Bytes.length_slice_ofNat, length_markedBytes]
    omega
  apply Value.exists_decode_iff.mpr
  refine ⟨?_, supports, by rw [length, size], ?_⟩
  · intro empty
    rw [empty] at length
    simp at length
    omega
  · intro _
    decide

/-- Where the cursor is behind a slot, the mark is decoded in place of the zeros that the
slot holds. -/
theorem marked_ne (slot : entries[place]? = some info) (decodable : info.isDecodable = true)
    (behind : Slots.cursor entries place < Slots.start entries place) {value other : Value}
    (marked : Slots.Decodes (markedBytes entries place) (Slots.cursor entries place) info value)
    (held : Slots.Decodes (markedBytes entries place) (Slots.start entries place) info other) :
    value ≠ other := by
  have size := EntryInfo.size_eq_of_isDecodable decodable
  have positive := EntryInfo.size_pos_of_isDecodable decodable
  have inside := Slots.start_add_size_le_total slot
  obtain ⟨width, widthEq⟩ := Nat.exists_eq_succ_of_ne_zero (Nat.ne_of_gt positive)
  have one : Bytes.slice (markedBytes entries place) (Slots.cursor entries place)
      (Slots.cursor entries place + info.size : Nat) = 1 :: Bytes.zeros width := by
    rw [markedBytes, widthEq]
    exact Bytes.slice_set_zeros (by omega)
  have zeros : Bytes.slice (markedBytes entries place) (Slots.start entries place)
      (Slots.start entries place + info.size : Nat) = Bytes.zeros (width + 1) := by
    rw [markedBytes, widthEq]
    exact Bytes.slice_set_zeros_of_lt behind (by omega)
  rw [Slots.Decodes, one] at marked
  rw [Slots.Decodes, zeros] at held
  obtain ⟨type, storage, typed, stored, fits, inhabited, reaches, offset⟩ :=
    Value.fits_of_decode marked
  obtain ⟨_, _, _, _, _, heldInhabited, heldReaches, _⟩ := Value.fits_of_decode held
  rw [typed, Value.decode_of_fits stored fits inhabited reaches offset] at marked
  rw [typed, Value.decode_of_fits stored fits heldInhabited heldReaches offset] at held
  rintro rfl
  have same := congrArg Value.payload (Except.ok.inj (marked.trans held.symm))
  have whole : (byteCount info.bitLength).toNat = width + 1 := by omega
  rw [whole, List.take_of_length_le (by simp), List.take_of_length_le (by simp)] at same
  exact Storage.payload_one_ne_zeros storage width same

end Mark

section Unfaithful

variable {slave index : Int} {object : ObjectInfo} {dictionary : ObjectDictionary} {place : Nat}

def markedSlave (object : ObjectInfo) (place : Nat) : SimulatedSlave :=
  { SimulatedSlave.plain with
    mailbox := SimulatedSlave.tableOf object.index (markedParts object.entries place) }

/-- A master of that slave with a given dictionary. -/
def markedMaster (dictionary : ObjectDictionary) (slave : Int) (object : ObjectInfo)
    (place : Nat) : Master MemoryEngine :=
  { idle BusConfig.defaults none (MemoryEngine.withSlave slave (markedSlave object place)) with
    dictionary }

theorem exists_place_markedMaster (dictionary : ObjectDictionary) (slave : Int)
    (object : ObjectInfo) (place : Nat) :
    ∃ position, (markedMaster dictionary slave object place).engine.segment.place? slave =
        some position ∧
      (markedMaster dictionary slave object place).engine.segment.slave? slave =
        some (markedSlave object place) :=
  MemoryEngine.exists_place_withSlave slave (markedSlave object place)

theorem holdsObject_markedSlave (object : ObjectInfo) (place : Nat) :
    SimulatedSlave.HoldsObject (markedSlave object place).mailbox object.index
      (markedParts object.entries place) :=
  SimulatedSlave.holdsObject_tableOf _ _

theorem holdsSlots_markedMaster (dictionary : ObjectDictionary) (slave : Int) (place : Nat)
    (sizes : ∀ info ∈ object.entries, 0 ≤ byteCount info.bitLength) :
    HoldsSlots (markedMaster dictionary slave object place).engine slave object := by
  obtain ⟨position, located, present⟩ := exists_place_markedMaster dictionary slave object place
  exact ⟨position, _, _, located, present, rfl, holdsObject_markedSlave object place,
    sized_markedParts place sizes⟩

theorem exists_readComplete_markedMaster (place : Nat)
    (known : dictionary.object slave object.index = .ok object)
    (supported : ∀ info ∈ object.entries, info.isDecodable = true →
      Value.Supports info.dataType info.bitLength) (inhabited : object.entries ≠ []) :
    ∃ values after,
      readComplete slave object.index true (some (.int 1))
        (markedMaster dictionary slave object place) = .ok values after ∧
      decodeSlots (markedBytes object.entries place) 0 object.entries = .ok values := by
  obtain ⟨values, decoded⟩ : ∃ values,
      decodeSlots (markedBytes object.entries place) 0 object.entries = .ok values := by
    apply Slots.exists_decodeSlots 0
    intro other info slot decodable
    apply exists_decodes_markedBytes decodable
      (supported info (List.mem_of_getElem? slot) decodable)
    have reached := Slots.start_add_size_le_total slot
    have passes := Slots.cursor_le_start object.entries other
    omega
  have answered : ((markedSlave object place).answer ⟨object.index, 0⟩ true).1 =
      .data (markedBytes object.entries place) := by
    have parts : ¬ (markedParts object.entries place).isEmpty = true := by
      have length : (markedParts object.entries place).length = object.entries.length := by
        rw [markedParts, List.length_splitLengths, List.length_map]
      rw [List.isEmpty_iff_length_eq_zero, length]
      exact fun none => inhabited (List.length_eq_zero_iff.mp none)
    rw [SimulatedSlave.answer, if_pos rfl,
      SimulatedSlave.nextComplete_of_holds (holdsObject_markedSlave object place) rfl,
      if_neg parts, flatten_markedParts]
  obtain ⟨position, located, present⟩ := exists_place_markedMaster dictionary slave object place
  have given : ∃ number, timeoutOr (some (.int 1)) (markedMaster dictionary slave object place) =
      .ok number (markedMaster dictionary slave object place) := ⟨.int 1, rfl⟩
  obtain ⟨after, complete⟩ := (exists_readComplete_iff located present known).mpr
    ⟨given, MemoryEngine.passUpload_withSlave slave _, _, answered, decoded⟩
  exact ⟨values, after, complete, decoded⟩

/-- Reading the entry of a slot gives what its own bytes decode to. -/
theorem decodes_of_readEntry_markedMaster {info : EntryInfo} {value : Value} {later}
    (known : dictionary.object slave object.index = .ok object) (addressed : object.Addressed)
    (sizes : ∀ info ∈ object.entries, 0 ≤ byteCount info.bitLength)
    (slot : object.entries[place]? = some info) (decodable : info.isDecodable = true)
    (supports : Value.Supports info.dataType info.bitLength)
    (read : readEntry slave ⟨object.index, place⟩ (some (.int 1))
      (markedMaster dictionary slave object place) = .ok value later) :
    Slots.Decodes (markedBytes object.entries place) (Slots.start object.entries place) info
      value := by
  have sized := sized_markedParts place sizes
  obtain ⟨part, partAt, partSize⟩ := exists_part_of_slot sized slot
  obtain ⟨position, located, present⟩ := exists_place_markedMaster dictionary slave object place
  have answered : ((markedSlave object place).answer ⟨object.index, place⟩ false).1 =
      .data part := by
    rw [SimulatedSlave.answer, if_neg (by decide), SimulatedSlave.nextItem_of_only
      ((holdsObject_markedSlave object place).held place part partAt)]
  obtain ⟨_, _, held⟩ := (exists_readEntry_iff located present known slot
    (addressed place info slot) decodable supports answered partSize).mp ⟨later, read⟩
  rw [← slice_of_slot sized slot partAt, flatten_markedParts] at held
  exact held

/-- Bytes of a slot that cannot be decoded, before one that can, make some data read wrong: those
with a mark where the cursor is at the second slot, which is before the bytes of that slot. -/
theorem exists_unfaithful (known : dictionary.object slave object.index = .ok object)
    (addressed : object.Addressed) (outOfStep : ¬ Slots.InStep object.entries)
    (read : ¬ NeverRead object) :
    ∃ other : Master MemoryEngine, other.dictionary = dictionary ∧
      HoldsSlots other.engine slave object ∧ ∃ timeout, ¬ Faithful other slave object timeout := by
  have sizes : ∀ info ∈ object.entries, 0 ≤ byteCount info.bitLength := by
    intro info member
    by_contra negative
    exact read ⟨info, member, Or.inl (by omega)⟩
  have supported : ∀ info ∈ object.entries, info.isDecodable = true →
      Value.Supports info.dataType info.bitLength := by
    intro info member decodable
    by_contra unsupported
    exact read ⟨info, member, Or.inr ⟨decodable, unsupported⟩⟩
  obtain ⟨before, place, first, second, earlier, firstAt, secondAt, undecodable, decodable,
      bytes⟩ : ∃ (before place : Nat) (first second : EntryInfo), before < place ∧
        object.entries[before]? = some first ∧ object.entries[place]? = some second ∧
        first.isDecodable = false ∧ second.isDecodable = true ∧ first.size ≠ 0 := by
    rw [Slots.InStep] at outOfStep
    push Not at outOfStep
    exact outOfStep
  have behind := Slots.cursor_lt_start earlier firstAt undecodable bytes
  refine ⟨markedMaster dictionary slave object place, rfl,
    holdsSlots_markedMaster dictionary slave place sizes, some (.int 1), ?_⟩
  intro faithful
  obtain ⟨values, after, complete, decoded⟩ := exists_readComplete_markedMaster place
    known supported (List.ne_nil_of_mem (List.mem_of_getElem? secondAt))
  rcases (Slots.decodeSlots_ok 0 decoded).2 place second secondAt with
    ⟨notDecodable, _⟩ | ⟨_, value, item, marked⟩
  · rw [decodable] at notDecodable
    cases notDecodable
  · obtain ⟨later, entryRead⟩ := (faithful values after complete).2 place value item
    have held := decodes_of_readEntry_markedMaster known addressed sizes secondAt decodable
      (supported second (List.mem_of_getElem? secondAt) decodable) entryRead
    rw [Nat.zero_add] at marked
    exact marked_ne secondAt decodable behind marked held rfl

end Unfaithful

variable {slave index : Int} {object : ObjectInfo}

/-- An object in the dictionary of a master that commands lead to is read at once as its
entries are read, whatever data of the right sizes the slave holds, exactly if no bytes of a
slot that cannot be decoded come before one that can, or it is never read at once. -/
theorem faithful_iff_inStep {master : Master MemoryEngine} (reachable : Reachable master)
    (known : master.dictionary.object slave index = .ok object) :
    (∀ other : Master MemoryEngine, other.dictionary = master.dictionary →
        HoldsSlots other.engine slave object → ∀ timeout, Faithful other slave object timeout) ↔
      Slots.InStep object.entries ∨ NeverRead object := by
  obtain ⟨addressed, rfl⟩ :=
    (reachable.dictionaryAddressed listsPlainly_memoryEngine).object (findObject?_of_object known)
  constructor
  · intro faithful
    by_contra neither
    obtain ⟨outOfStep, read⟩ := not_or.mp neither
    obtain ⟨other, same, holds, timeout, unfaithful⟩ :=
      exists_unfaithful known addressed outOfStep read
    exact unfaithful (faithful other same holds timeout)
  · rintro (inStep | never) other same holds timeout
    · exact faithful_of_inStep (same ▸ known) addressed holds inStep
    · exact faithful_of_neverRead (same ▸ known) holds never

/-- A slave with an object of three bytes, the middle one of a type of its vendor. -/
def vendorSlave : SimulatedSlave :=
  { SimulatedSlave.plain with
    objects := [{
      index := 0x2000
      typeCode := 5
      objectCode := 9
      maxSubindex := some 2
      name := .text []
      entries := [⟨5, 8, 7, .text []⟩, ⟨0x800, 8, 7, .text []⟩, ⟨5, 8, 7, .text []⟩]
      bitLength := 8
      access := 7 }]
    mailbox := SimulatedSlave.tableOf 0x2000 [[2], [17], [34]] }

def vendorMaster : Master MemoryEngine :=
  final ((Command.openBus false).perform (idle BusConfig.defaults none
    (MemoryEngine.ofSegment { Segment.bare with slaves := [vendorSlave] })))

theorem reachable_vendorMaster : Reachable vendorMaster :=
  Reachable.step (Reachable.idle _ _ _) _

def vendorObject : ObjectInfo :=
  Discovery.objectInfo 0 ⟨0x2000, 5, 9, some 2, .text []⟩
    [⟨5, 8, 7, .text []⟩, ⟨0x800, 8, 7, .text []⟩, ⟨5, 8, 7, .text []⟩]

theorem object_vendorMaster : vendorMaster.dictionary.object 0 0x2000 = .ok vendorObject := by
  have found : vendorMaster.dictionary.findObject? 0 0x2000 = some vendorObject := by
    decide +kernel
  obtain ⟨objects, listed, _⟩ := Option.bind_eq_some_iff.mp found
  rw [ObjectDictionary.object, listed]
  simp only [found]

theorem place_vendorMaster : vendorMaster.engine.segment.place? 0 = some 0 := by
  decide +kernel

theorem slave_vendorMaster :
    ∃ found, vendorMaster.engine.segment.slave? 0 = some found ∧
      found.complete.get? vendorObject.index = none ∧
      SimulatedSlave.HoldsObject found.mailbox vendorObject.index [[2], [17], [34]] := by
  have whole : (vendorMaster.engine.segment.slave? 0).map (fun found : SimulatedSlave =>
      (found.complete.get? 0x2000, found.mailbox)) =
        some (none, SimulatedSlave.tableOf 0x2000 [[2], [17], [34]]) := by
    decide +kernel
  obtain ⟨found, present, same⟩ := Option.map_eq_some_iff.mp whole
  obtain ⟨plain, table⟩ := Prod.mk.inj same
  refine ⟨found, present, plain, ?_⟩
  rw [table]
  exact SimulatedSlave.holdsObject_tableOf _ _

theorem passUpload_vendorMaster :
    ∃ segment, Segment.passUpload vendorMaster.engine.segment = .ok () segment := by
  apply Action.exists_ok_of_result?
  decide +kernel

theorem timeoutOr_vendorMaster :
    ∃ number, timeoutOr none vendorMaster = .ok number vendorMaster := by
  have given : ∃ after, timeoutOr none vendorMaster = .ok Layout.defaultTimeout after := by
    apply Action.exists_ok_of_result?
    decide +kernel
  obtain ⟨after, given⟩ := given
  rw [timeoutOr_keeps given] at given
  exact ⟨_, given⟩

/-- The last slot is the byte of its entry, and read at once it is the byte of the entry
before it. -/
theorem reads_vendorMaster :
    (∃ after, readEntry 0 ⟨0x2000, 2⟩ none vendorMaster = .ok ⟨.u8, .int 34⟩ after) ∧
      ∃ after, readComplete 0 0x2000 true none vendorMaster =
        .ok [some ⟨.u8, .int 2⟩, none, some ⟨.u8, .int 17⟩] after := by
  obtain ⟨found, present, plain, holds⟩ := slave_vendorMaster
  have supports : Value.Supports (some .u8) 8 :=
    ⟨.u8, .scalar (.unsigned 1), rfl, rfl, by decide, fun _ => rfl, by rintro _ ⟨⟩; rfl⟩
  have answered : (found.answer ⟨vendorObject.index, (2 : Nat)⟩ false).1 = .data [34] := by
    rw [SimulatedSlave.answer, if_neg (by decide), SimulatedSlave.nextItem_of_only
      (holds.held 2 [34] rfl)]
  have known : vendorMaster.dictionary.object 0 vendorObject.index = .ok vendorObject :=
    object_vendorMaster
  have slot : vendorObject.entries[2]? =
      some ⟨⟨0x2000, 2⟩, some .u8, 8, .ofBits 7, .text [], 5⟩ := rfl
  constructor
  · apply (exists_readEntry_iff place_vendorMaster present known slot rfl rfl supports answered
      rfl).mpr
    exact ⟨timeoutOr_vendorMaster, passUpload_vendorMaster, rfl⟩
  · apply (exists_readComplete_iff place_vendorMaster present known).mpr
    refine ⟨timeoutOr_vendorMaster, passUpload_vendorMaster, [2, 17, 34], ?_, rfl⟩
    rw [SimulatedSlave.answer, if_pos rfl, SimulatedSlave.nextComplete_of_holds holds plain]
    rfl

/-- The object of the vendor slave is not read at once as its entries are read. -/
theorem faithful_iff_inStep_vendorMaster :
    HoldsSlots vendorMaster.engine 0 vendorObject ∧
      ¬ Faithful vendorMaster 0 vendorObject none ∧
      ¬ (Slots.InStep vendorObject.entries ∨ NeverRead vendorObject) := by
  obtain ⟨found, present, plain, holds⟩ := slave_vendorMaster
  have held : HoldsSlots vendorMaster.engine 0 vendorObject :=
    ⟨0, found, _, place_vendorMaster, present, plain, holds, rfl⟩
  have unfaithful : ¬ Faithful vendorMaster 0 vendorObject none := by
    obtain ⟨⟨_, entryRead⟩, after, complete⟩ := reads_vendorMaster
    intro faithful
    obtain ⟨later, read⟩ := (faithful _ after complete).2 2 ⟨.u8, .int 17⟩ rfl
    cases entryRead.symm.trans read
  refine ⟨held, unfaithful, ?_⟩
  intro inStep
  exact unfaithful ((faithful_iff_inStep reachable_vendorMaster object_vendorMaster).mpr inStep
    vendorMaster rfl held none)

end Master

end Fieldbus
