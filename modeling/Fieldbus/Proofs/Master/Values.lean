import Fieldbus.Proofs.Engine.MemoryImage
import Fieldbus.Proofs.Master.Images
import Fieldbus.Proofs.Pdo.Readback

/-!
# Values in the image

A value that was set is read back from the image.  The bytes of the image outside its entry stay
as they are, and so do the values of all other slaves.
-/

namespace Fieldbus

namespace Master

open Fieldbus.Action Engine Engine.Delivers Engine.Ranged

variable {ε : Type} [Engine ε] {slave : Int} {entry : EntryIndex} {value : Value} {map : PdoMap}
  {info : MappedEntry}

section Readings

variable [Ranged ε] {master after : Master ε}

/-- What reading the values of a slave comes to. -/
def readings (slave : Int) (master : Master ε) : Except Fault (List (EntryIndex × Value)) :=
  match master.maps.get? slave with
  | none => .error (.slaveNotFound slave)
  | some map => do
      let inputs ← ImageRange.ofSlave (inputs master.engine) slave
      let outputs ← ImageRange.ofSlave (outputs master.engine) slave
      return (map.readValues slave (inputs.read (Engine.image master.engine))
        (outputs.read (Engine.image master.engine))).1

omit [Engine ε] [Ranged ε] in
theorem exists_reportAll (notices : List Notice) (master : Master ε) :
    ∃ after, reportAll notices master = .ok () after := by
  induction notices generalizing master with
  | nil => exact ⟨master, rfl⟩
  | cons notice rest ih => exact ih _

theorem outcome_values (slave : Int) (master : Master ε) :
    outcome (values slave master) = readings slave master := by
  rw [readings]
  cases known : master.maps.get? slave with
  | none =>
      have missing : Master.map slave master = .error (.slaveNotFound slave) master := by
        rw [Master.map, known]
      rw [values, bind_of_error missing]
      rfl
  | some map =>
      have found : Master.map slave master = .ok map master := by rw [Master.map, known]
      have image : image master = .ok (Engine.image master.engine) master := rfl
      rw [values, bind_of_ok found]
      cases inputsAsked : ImageRange.ofSlave (inputs master.engine) slave with
      | error fault =>
          rw [bind_of_error (ask_inputRange_of_error inputsAsked)]
          rfl
      | ok inputs =>
          rw [bind_of_ok (ask_inputRange_of_ok inputsAsked)]
          cases outputsAsked : ImageRange.ofSlave (outputs master.engine) slave with
          | error fault =>
              rw [bind_of_error (ask_outputRange_of_error outputsAsked)]
              rfl
          | ok outputs =>
              obtain ⟨after, reported⟩ := exists_reportAll (map.readValues slave
                (inputs.read (Engine.image master.engine))
                (outputs.read (Engine.image master.engine))).2 master
              rw [bind_of_ok (ask_outputRange_of_ok outputsAsked), bind_of_ok image]
              simp only [bind_of_ok reported]
              rfl

theorem readings_congr (mapsEq : after.maps = master.maps)
    (inputsEq : inputs after.engine = inputs master.engine)
    (outputsEq : outputs after.engine = outputs master.engine)
    (inputsKept : ∀ range, ImageRange.ofSlave (inputs master.engine) slave = .ok range →
      range.read (Engine.image after.engine) = range.read (Engine.image master.engine))
    (outputsKept : ∀ range, ImageRange.ofSlave (outputs master.engine) slave = .ok range →
      range.read (Engine.image after.engine) = range.read (Engine.image master.engine)) :
    readings slave after = readings slave master := by
  rw [readings, readings, mapsEq, inputsEq, outputsEq]
  cases master.maps.get? slave with
  | none => rfl
  | some map =>
      cases inputsAsked : ImageRange.ofSlave (inputs master.engine) slave with
      | error fault => rfl
      | ok inputRange =>
          cases outputsAsked : ImageRange.ofSlave (outputs master.engine) slave with
          | error fault => rfl
          | ok outputRange =>
              simp only [Bind.bind, Except.bind, inputsKept _ inputsAsked,
                outputsKept _ outputsAsked]

end Readings

section Written

variable [Ranged ε] {master after : Master ε} {range : ImageRange} {changed : Bytes}

/-- Setting a value changes bytes of its entry only. -/
theorem Sets.getElem?_image (sets : Sets slave entry value master map range changed)
    (mapped : Mapped master) (found : map.find? entry = some info)
    (positive : 0 < info.bitLength) {index : Nat}
    (outside : ¬ (range.offset + info.byteOffset ≤ index ∧
      (index : Int) < range.offset + info.byteOffset + info.byteCount)) :
    (range.write (Engine.image master.engine) changed)[index]? =
      (Engine.image master.engine)[index]? := by
  have laid := mapped.laidOut_of_known sets.known
  have inside := stop_le_of_ofSlave laid sets.asked
  have fits := sets.length_changed laid mapped.gapless
  rw [ImageRange.getElem?_write inside fits]
  by_cases within : range.offset ≤ index ∧ index < range.stop
  · obtain ⟨_, kept⟩ := PdoMap.getElem?_of_write (mapped.gapless slave map sets.known) sets.written
      found positive
    have stops : range.stop = range.offset + range.length := rfl
    rw [if_pos within, kept (index - range.offset) (by omega), ImageRange.getElem?_read,
      if_pos (by omega), Nat.add_sub_cancel' within.1]
  · rw [if_neg within]

/-- The values of the slave whose value was set are read from its new outputs. -/
theorem Sets.readings_self (sets : Sets slave entry value master map range changed)
    (mapped : Mapped master) : ∃ inputBytes,
      readings slave (master.withImage (range.write (Engine.image master.engine) changed)) =
        .ok (map.readValues slave inputBytes changed).1 := by
  have laid := mapped.laidOut_of_known sets.known
  have inside := stop_le_of_ofSlave laid sets.asked
  have fits := sets.length_changed laid mapped.gapless
  obtain ⟨position, rfl, found⟩ := ImageRange.ofSlave_eq_ok_iff.mp sets.asked
  have short : position < (inputs master.engine).length := by
    rw [laid.paired]
    exact (List.getElem?_eq_some_iff.mp found).1
  have inputAsked := ImageRange.ofSlave_of_getElem? (List.getElem?_eq_getElem short)
  refine ⟨(inputs master.engine)[position].read
    (range.write (Engine.image master.engine) changed), ?_⟩
  rw [readings, maps_withImage, sets.known, engine_withImage, inputs_setImage, outputs_setImage,
    image_setImage]
  simp only [inputAsked, sets.asked, Bind.bind, Except.bind, ImageRange.read_write inside fits]
  rfl

theorem Sets.readings_of_ne (sets : Sets slave entry value master map range changed)
    (mapped : Mapped master) {other : Int} (different : other ≠ slave) :
    readings other (master.withImage (range.write (Engine.image master.engine) changed)) =
      readings other master := by
  have laid := mapped.laidOut_of_known sets.known
  have inside := stop_le_of_ofSlave laid sets.asked
  have fits := sets.length_changed laid mapped.gapless
  obtain ⟨position, rfl, found⟩ := ImageRange.ofSlave_eq_ok_iff.mp sets.asked
  apply readings_congr (maps_withImage _ _) (inputs_setImage _ _) (outputs_setImage _ _)
  · intro inputRange asked
    obtain ⟨place, rfl, inputFound⟩ := ImageRange.ofSlave_eq_ok_iff.mp asked
    have apart := laid.outputs_apart_inputs found inputFound
    rw [engine_withImage, image_setImage, ImageRange.read_write_of_apart inside fits apart]
  · intro outputRange asked
    obtain ⟨place, rfl, outputFound⟩ := ImageRange.ofSlave_eq_ok_iff.mp asked
    have apart := laid.outputs_apart (by omega) found outputFound
    rw [engine_withImage, image_setImage, ImageRange.read_write_of_apart inside fits apart]

end Written

section ReadBack

variable [LaysOut ε] {master after : Master ε}

/-- What a value that was set leaves behind: it is read back with its payload, and no byte of the
image outside its entry and no value of another slave is changed. -/
structure ReadsBack (slave : Int) (info : MappedEntry) (value : Value)
    (master after : Master ε) : Prop where
  read : ∃ found reported, values slave after = .ok found reported ∧
    (info.entry, ⟨value.dataType, value.payload.settled⟩) ∈ found
  length : (Engine.image after.engine).length = (Engine.image master.engine).length
  image : ∃ range, ImageRange.ofSlave (outputs master.engine) slave = .ok range ∧
    ∀ index : Nat, ¬ (range.offset + info.byteOffset ≤ index ∧
        (index : Int) < range.offset + info.byteOffset + info.byteCount) →
      (Engine.image after.engine)[index]? = (Engine.image master.engine)[index]?
  others : ∀ other, other ≠ slave →
    outcome (values other after) = outcome (values other master)

/-- A value of an exact type that was set is read back, if its entry is mapped once, to outputs,
with a positive number of bits, and in whole bytes unless it is a truth value. -/
theorem readsBack_of_setValue (reachable : Reachable master)
    (known : master.maps.get? slave = some map)
    (once : map.entries.filter (·.entry = entry) = [info]) (direction : info.smType = .outputs)
    (proper : entry.index ≠ 0) (typed : info.dataType = some value.dataType)
    (exact : value.dataType ∈ DataType.exact) (positive : 0 < info.bitLength)
    (aligned : value.dataType ≠ .bool → info.bitLength % 8 = 0)
    (set : setValue slave entry value master = .ok () after) :
    ReadsBack slave info value master after := by
  have mapped := reachable.mapped
  have gapless := mapped.gapless slave map known
  have found := PdoMap.find?_of_once once direction
  obtain ⟨member, entryEq⟩ := PdoMap.mem_entries_of_find? found
  obtain ⟨other, range, changed, sets, rfl⟩ := exists_of_setValue_ok set
  cases sets.known.symm.trans known
  have laid := mapped.laidOut_of_known known
  have inside := stop_le_of_ofSlave laid sets.asked
  have fits := sets.length_changed laid mapped.gapless
  refine ⟨?_, ?_, ⟨range, sets.asked, ?_⟩, ?_⟩
  · have hasValue : info.hasValue = true := by
      rw [MappedEntry.hasValue, MappedEntry.isPadding, entryEq]
      simp [proper, Int.ne_of_gt positive]
    have isOutput : info ∈ map.entriesOf .outputs := by
      rw [← direction]
      exact gapless.mem_entriesOf member
    have decoded := PdoMap.decode_of_write gapless sets.written found positive typed exact aligned
    obtain ⟨inputBytes, reading⟩ := sets.readings_self mapped
    obtain ⟨reported, read⟩ := exists_ok_of_outcome ((outcome_values _ _).trans reading)
    exact ⟨_, reported, read, PdoMap.mem_readValues isOutput hasValue decoded⟩
  · rw [engine_withImage, image_setImage, ImageRange.length_write inside fits]
  · intro index outside
    rw [engine_withImage, image_setImage]
    exact sets.getElem?_image mapped found positive outside
  · intro different distinct
    rw [outcome_values, outcome_values, sets.readings_of_ne mapped distinct]

end ReadBack

/-- A slave with a truth value, padding and a text of two bytes in its outputs. -/
def gaugeSlave : SimulatedSlave :=
  { SimulatedSlave.plain with
    outputBytes := 3
    objects := [{
      index := 0x7000
      typeCode := 5
      objectCode := 9
      maxSubindex := some 2
      name := .text []
      entries := [⟨5, 8, 7, .text []⟩, ⟨1, 1, 7, .text []⟩, ⟨9, 16, 7, .text []⟩]
      bitLength := 8
      access := 7 }]
    mailbox := [
      (⟨0x1c00, 0⟩, [.data [3]]), (⟨0x1c00, 3⟩, [.data [3]]),
      (⟨0x1c12, 0⟩, [.data [1]]), (⟨0x1c12, 1⟩, [.data [0x00, 0x16]]),
      (⟨0x1600, 0⟩, [.data [3]]), (⟨0x1600, 1⟩, [.data (Layout.mappingWord 0x7000 1 1)]),
      (⟨0x1600, 2⟩, [.data (Layout.mappingWord 0 0 7)]),
      (⟨0x1600, 3⟩, [.data (Layout.mappingWord 0x7000 2 16)])] }

/-- A master of two such slaves after the bus was opened. -/
def gaugeMaster : Master MemoryEngine :=
  Command.performAll [.openBus false]
    (idle BusConfig.defaults none
      (MemoryEngine.ofSegment { Segment.bare with slaves := [gaugeSlave, gaugeSlave] }))

def gaugeEntry : MappedEntry where
  position := 2
  entry := ⟨0x7000, 2⟩
  bitLength := 16
  byteOffset := 1
  bitOffset := 0
  dataType := some .string
  smType := .outputs
  name := .text []

/-- A text that was set is read back from the outputs of its slave. -/
theorem readsBack_of_setValue_gaugeMaster :
    ∃ after, setValue 1 ⟨0x7000, 2⟩ ⟨.string, .text "é"⟩ gaugeMaster = .ok () after ∧
      ReadsBack 1 gaugeEntry ⟨.string, .text "é"⟩ gaugeMaster after ∧
      Engine.image after.engine = [0, 0, 0, 0, 0xc3, 0xa9] := by
  have reachable : Reachable gaugeMaster := (Reachable.idle _ _ _).performAll _
  have resolved : (gaugeMaster.maps.get? 1).isSome = true := by decide +kernel
  obtain ⟨map, known⟩ := Option.isSome_iff_exists.mp resolved
  have once : map.entries.filter (·.entry = ⟨0x7000, 2⟩) = [gaugeEntry] := by
    have listed : ((gaugeMaster.maps.get? 1).getD []).entries.filter (·.entry = ⟨0x7000, 2⟩) =
        [gaugeEntry] := by
      decide +kernel
    rwa [known] at listed
  have accepted : result? (setValue 1 ⟨0x7000, 2⟩ ⟨.string, .text "é"⟩ gaugeMaster) =
      some () := by
    decide +kernel
  have image : Engine.image (final (setValue 1 ⟨0x7000, 2⟩ ⟨.string, .text "é"⟩
      gaugeMaster)).engine = [0, 0, 0, 0, 0xc3, 0xa9] := by
    decide +kernel
  obtain ⟨after, set⟩ := exists_ok_of_result? accepted
  rw [set] at image
  have back := readsBack_of_setValue reachable known once rfl (by decide) rfl (by decide)
    (by decide) (fun _ => rfl) set
  exact ⟨after, set, back, image⟩

end Master

end Fieldbus
