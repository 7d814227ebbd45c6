import Fieldbus.Proofs.FaultClass
import Fieldbus.Proofs.Master.Complete

/-!
# Objects that the codec refuses

The dictionary counts an entry as decodable if its type code is known and its length is not
zero.  The codec has values for fewer entries.  An object that is read at once has a value or
nothing for each slot exactly if the two agree on all of its slots; one slot on which they do
not takes down the whole object.
-/

namespace Fieldbus

namespace EntryInfo

variable {info : EntryInfo}

/-- The codec has values of the type and the length of the entry. -/
def IsSupported (info : EntryInfo) : Prop :=
  Value.Supports info.dataType info.bitLength

/-- The entry counts as decodable, and the codec has no values for it. -/
def IsMisjudged (info : EntryInfo) : Prop :=
  info.isDecodable = true ∧ ¬ info.IsSupported

theorem isDecodable_of_isSupported (supported : info.IsSupported) : info.isDecodable = true := by
  obtain ⟨known, storage, typed, _, fits⟩ := supported
  simp [isDecodable, typed, fits.positive]

theorem isSupported_of_not_isMisjudged (judged : ¬ info.IsMisjudged)
    (decodable : info.isDecodable = true) : info.IsSupported := by
  by_contra unsupported
  exact judged ⟨decodable, unsupported⟩

end EntryInfo

namespace Value

variable {type : Option DataType} {bitLength bitOffset : Int} {raw : Bytes} {fault : CodecFault}

/-- On a buffer that is long enough the codec refuses nothing but types and lengths. -/
theorem faultClass_of_decode_error (inhabited : raw ≠ [])
    (reaches : byteCount bitLength ≤ raw.length)
    (refused : decode type bitLength raw bitOffset = .error fault) :
    (Fault.codec fault).faultClass = .unsupportedType := by
  obtain ⟨objection, rfl⟩ := unsupported_of_decode_error inhabited reaches refused
  rfl

end Value

namespace Slots

variable {entries : List EntryInfo} {info : EntryInfo} {raw : Bytes} {position : Nat}

theorem slice_covers (decodable : info.isDecodable = true)
    (inside : position + info.size ≤ raw.length) :
    raw.slice position (position + info.size : Nat) ≠ [] ∧
      byteCount info.bitLength ≤ (raw.slice position (position + info.size : Nat)).length := by
  have positive := EntryInfo.size_pos_of_isDecodable decodable
  have length : (raw.slice position (position + info.size : Nat)).length = info.size := by
    rw [Bytes.length_slice_ofNat]
    omega
  constructor
  · intro empty
    rw [empty] at length
    exact absurd length (by simp; omega)
  · rw [length, EntryInfo.size_eq_of_isDecodable decodable]

theorem exists_decodes_iff (decodable : info.isDecodable = true)
    (inside : position + info.size ≤ raw.length) :
    (∃ value, Decodes raw position info value) ↔ info.IsSupported := by
  obtain ⟨inhabited, reaches⟩ := slice_covers decodable inside
  simp only [Decodes, Value.exists_decode_iff]
  constructor
  · rintro ⟨_, supported, _, _⟩
    exact supported
  · intro supported
    exact ⟨inhabited, supported, reaches, fun _ => by decide⟩

/-- The slots from a position on are refused as soon as one of them is misjudged, whatever the
slots before it hold. -/
theorem decodeSlots_of_misjudged (position : Nat)
    (covers : position + total entries ≤ raw.length)
    (misjudged : ∃ info ∈ entries, info.IsMisjudged) :
    ∃ fault, Master.decodeSlots raw position entries = .error fault ∧
      (Fault.codec fault).faultClass = .unsupportedType := by
  induction entries generalizing position with
  | nil =>
      obtain ⟨_, inside, _⟩ := misjudged
      cases inside
  | cons first rest ih =>
      have split : total (first :: rest) = first.size + total rest := by simp [total]
      have later : (∃ info ∈ rest, info.IsMisjudged) ∨ first.IsMisjudged := by
        obtain ⟨info, member, wrong⟩ := misjudged
        rcases List.mem_cons.mp member with rfl | member
        · exact Or.inr wrong
        · exact Or.inl ⟨info, member, wrong⟩
      rw [Master.decodeSlots]
      by_cases decodable : first.isDecodable = true
      · obtain ⟨inhabited, reaches⟩ : raw.slice position (position + first.size : Nat) ≠ [] ∧
            byteCount first.bitLength ≤ (raw.slice position (position + first.size : Nat)).length :=
          slice_covers decodable (by omega)
        rw [if_pos decodable, ← EntryInfo.size_eq_of_isDecodable decodable, ← Int.natCast_add]
        cases head : Value.decode first.dataType first.bitLength
            (raw.slice position (position + first.size : Nat)) 0 with
        | error fault =>
            refine ⟨fault, ?_, Value.faultClass_of_decode_error inhabited reaches head⟩
            simp only [Bind.bind, Except.bind, head]
        | ok value =>
            rcases later with later | wrong
            · obtain ⟨fault, refused, unsupported⟩ :=
                ih (position + first.size) (by omega) later
              refine ⟨fault, ?_, unsupported⟩
              simp only [Bind.bind, Except.bind, head, refused]
            · have supported := (exists_decodes_iff decodable (by omega)).mp ⟨value, head⟩
              exact absurd supported wrong.2
      · rw [if_neg decodable]
        rcases later with later | wrong
        · obtain ⟨fault, refused, unsupported⟩ := ih position (by omega) later
          refine ⟨fault, ?_, unsupported⟩
          simp only [Bind.bind, Except.bind, refused]
        · exact absurd wrong.1 decodable

/-- One item for each slot: nothing for a slot that the codec does not support, and for any
other one what its bytes at the cursor decode to. -/
def Served (raw : Bytes) (entries : List EntryInfo) (values : List (Option Value)) : Prop :=
  values.length = entries.length ∧ ∀ place info, entries[place]? = some info →
    (¬ info.IsSupported ∧ values[place]? = some none) ∨
      (info.IsSupported ∧ ∃ value, values[place]? = some (some value) ∧
        Decodes raw (cursor entries place) info value)

theorem exists_served (covers : total entries ≤ raw.length)
    (judged : ∀ info ∈ entries, ¬ info.IsMisjudged) :
    ∃ values, Master.decodeSlots raw 0 entries = .ok values ∧ Served raw entries values := by
  have inside : ∀ (place : Nat) (info : EntryInfo), entries[place]? = some info →
      cursor entries place + info.size ≤ raw.length := by
    intro place info slot
    have reached := start_add_size_le_total slot
    have passes := cursor_le_start entries place
    omega
  have supported : ∀ (place : Nat) (info : EntryInfo), entries[place]? = some info →
      info.isDecodable = true → info.IsSupported := by
    intro place info slot decodable
    exact EntryInfo.isSupported_of_not_isMisjudged (judged info (List.mem_of_getElem? slot))
      decodable
  obtain ⟨values, decoded⟩ : ∃ values, Master.decodeSlots raw (0 : Nat) entries = .ok values := by
    apply exists_decodeSlots
    intro place info slot decodable
    rw [Nat.zero_add]
    exact (exists_decodes_iff decodable (inside place info slot)).mpr
      (supported place info slot decodable)
  obtain ⟨lengthEq, slots⟩ := decodeSlots_ok 0 decoded
  refine ⟨values, decoded, lengthEq, ?_⟩
  intro place info slot
  rcases slots place info slot with ⟨undecodable, item⟩ | ⟨decodable, value, item, found⟩
  · refine Or.inl ⟨?_, item⟩
    intro isSupported
    simp [EntryInfo.isDecodable_of_isSupported isSupported] at undecodable
  · rw [Nat.zero_add] at found
    exact Or.inr ⟨supported place info slot decodable, value, item, found⟩

end Slots

namespace Master

open Fieldbus.Action

variable {ε : Type} [Engine ε] {master between : Master ε} {slave index : Int}
  {object : ObjectInfo} {timeout : Option Number} {raw : Bytes} {includeFirst : Bool}

theorem readComplete_of_upload (known : master.dictionary.object slave index = .ok object)
    (uploaded : upload slave ⟨index, 0⟩ true (completeSize object.entries) timeout master =
      .ok raw between) :
    readComplete slave index includeFirst timeout master =
      match decodeSlots raw 0 object.entries with
      | .ok values =>
          .ok (if includeFirst || object.maxSubindex = 0 then values else values.drop 1) between
      | .error fault => .error (.codec fault) between := by
  have looked : Action.ofExcept (master.dictionary.object slave index) master =
      .ok object master := by
    rw [known, ofExcept_ok]
  rw [readComplete, bind_of_ok (get_apply master), bind_of_ok looked, bind_of_ok uploaded]
  cases decodeSlots raw 0 object.entries with
  | ok values => rfl
  | error fault => rfl

/-- An object whose payload covers its slots has a value for each slot that the codec supports
and nothing for the others exactly if no slot is misjudged, and it is refused for a type that
is not supported exactly if one is. -/
theorem readComplete_served_iff (known : master.dictionary.object slave index = .ok object)
    (uploaded : upload slave ⟨index, 0⟩ true (completeSize object.entries) timeout master =
      .ok raw between)
    (covers : Slots.total object.entries ≤ raw.length) :
    ((∃ values, Slots.Served raw object.entries values ∧
        readComplete slave index includeFirst timeout master =
          .ok (if includeFirst || object.maxSubindex = 0 then values else values.drop 1)
            between) ↔
        ∀ info ∈ object.entries, ¬ info.IsMisjudged) ∧
      ((∃ fault, readComplete slave index includeFirst timeout master = .error fault between ∧
          fault.faultClass = .unsupportedType) ↔
        ∃ info ∈ object.entries, info.IsMisjudged) := by
  rw [readComplete_of_upload known uploaded]
  by_cases misjudged : ∃ info ∈ object.entries, info.IsMisjudged
  · have reaches : 0 + Slots.total object.entries ≤ raw.length := by omega
    obtain ⟨fault, refused, unsupported⟩ := Slots.decodeSlots_of_misjudged 0 reaches misjudged
    rw [Int.natCast_zero] at refused
    rw [refused]
    constructor
    · constructor
      · rintro ⟨_, _, impossible⟩
        cases impossible
      · intro judged
        obtain ⟨info, member, wrong⟩ := misjudged
        exact absurd wrong (judged info member)
    · constructor
      · intro _
        exact misjudged
      · intro _
        exact ⟨_, rfl, unsupported⟩
  · have judged : ∀ info ∈ object.entries, ¬ info.IsMisjudged := by
      intro info member wrong
      exact misjudged ⟨info, member, wrong⟩
    obtain ⟨values, decoded, served⟩ := Slots.exists_served covers judged
    rw [decoded]
    constructor
    · constructor
      · intro _
        exact judged
      · intro _
        exact ⟨values, served, rfl⟩
    · constructor
      · rintro ⟨_, impossible, _⟩
        cases impossible
      · intro wrong
        exact absurd wrong misjudged

/-- A slave with an object whose last slot is of a known type that the codec lacks. -/
def counterSlave : SimulatedSlave :=
  { SimulatedSlave.plain with
    objects := [{
      index := 0x2000
      typeCode := 5
      objectCode := 9
      maxSubindex := some 2
      name := .text []
      entries := [⟨5, 8, 7, .text []⟩, ⟨5, 8, 7, .text []⟩, ⟨0x10, 24, 7, .text []⟩]
      bitLength := 8
      access := 7 }]
    mailbox := SimulatedSlave.tableOf 0x2000 [[2], [17], [1, 2, 3]] }

def counterMaster : Master MemoryEngine :=
  final ((Command.openBus false).perform (idle BusConfig.defaults none
    (MemoryEngine.ofSegment { Segment.bare with slaves := [counterSlave] })))

def counterObject : ObjectInfo :=
  Discovery.objectInfo 0 ⟨0x2000, 5, 9, some 2, .text []⟩
    [⟨5, 8, 7, .text []⟩, ⟨5, 8, 7, .text []⟩, ⟨0x10, 24, 7, .text []⟩]

theorem object_counterMaster : counterMaster.dictionary.object 0 0x2000 = .ok counterObject := by
  have found : counterMaster.dictionary.findObject? 0 0x2000 = some counterObject := by
    decide +kernel
  obtain ⟨objects, listed, _⟩ := Option.bind_eq_some_iff.mp found
  rw [ObjectDictionary.object, listed]
  simp only [found]

theorem upload_counterMaster : ∃ between,
    upload 0 ⟨0x2000, 0⟩ true (completeSize counterObject.entries) none counterMaster =
      .ok [2, 17, 1, 2, 3] between := by
  have located : counterMaster.engine.segment.place? 0 = some 0 := by decide +kernel
  have whole : (counterMaster.engine.segment.slave? 0).map (fun found : SimulatedSlave =>
      (found.complete.get? 0x2000, found.mailbox)) =
        some (none, SimulatedSlave.tableOf 0x2000 [[2], [17], [1, 2, 3]]) := by
    decide +kernel
  obtain ⟨found, present, same⟩ := Option.map_eq_some_iff.mp whole
  obtain ⟨plain, table⟩ := Prod.mk.inj same
  have holds : SimulatedSlave.HoldsObject found.mailbox 0x2000 [[2], [17], [1, 2, 3]] := by
    rw [table]
    exact SimulatedSlave.holdsObject_tableOf _ _
  have answered : (found.answer ⟨0x2000, 0⟩ true).1 = .data [2, 17, 1, 2, 3] := by
    rw [SimulatedSlave.answer, if_pos rfl, SimulatedSlave.nextComplete_of_holds holds plain]
    rfl
  have given : ∃ after, timeoutOr none counterMaster = .ok Layout.defaultTimeout after := by
    apply exists_ok_of_result?
    decide +kernel
  have passed : ∃ segment, Segment.passUpload counterMaster.engine.segment = .ok () segment := by
    apply exists_ok_of_result?
    decide +kernel
  obtain ⟨after, given⟩ := given
  rw [timeoutOr_keeps given] at given
  exact (exists_upload_iff located present).mpr ⟨⟨_, given⟩, passed, answered⟩

/-- The payload of the counter object covers its slots, and the object is refused. -/
theorem readComplete_served_iff_counterMaster :
    ∃ between,
      upload 0 ⟨0x2000, 0⟩ true (completeSize counterObject.entries) none counterMaster =
        .ok [2, 17, 1, 2, 3] between ∧
      Slots.total counterObject.entries ≤ 5 ∧
      ∃ fault, readComplete 0 0x2000 true none counterMaster = .error fault between ∧
        fault.faultClass = .unsupportedType := by
  obtain ⟨between, uploaded⟩ := upload_counterMaster
  have covers : Slots.total counterObject.entries ≤ 5 := by decide
  have lacking : ¬ Value.Supports (some .i24) 24 := by
    rintro ⟨_, _, same, stored, _⟩
    cases same
    cases stored
  refine ⟨between, uploaded, covers, ?_⟩
  apply (readComplete_served_iff object_counterMaster uploaded covers).2.mpr
  exact ⟨⟨⟨0x2000, 2⟩, some .i24, 24, .ofBits 7, .text [], 0x10⟩, by decide, rfl, lacking⟩

end Master

end Fieldbus
