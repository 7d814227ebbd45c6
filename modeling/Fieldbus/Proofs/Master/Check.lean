import Fieldbus.Proofs.Engine.Promises
import Fieldbus.Proofs.FaultClass
import Fieldbus.Proofs.Master.Maps
import Fieldbus.Proofs.Pdo.Write

/-!
# Checks and writes of values

A check of a value looks at the map of the slave only, a write also at its part of the
process image.  They fail alike exactly where the image holds the entry that passes the
check; a map that covers more than the image, or an image that is gone, sets them apart.
-/

namespace Fieldbus

namespace Master

open Fieldbus.Action

variable {ε : Type} [Engine ε]

/-- A check and a write of a value fail alike: both succeed, or both fail with faults of
the same class. -/
def Agree (master : Master ε) (slave : Int) (entry : EntryIndex) (value : Value) : Prop :=
  faultClass? (checkValue slave entry value master) =
    faultClass? (setValue slave entry value master)

/-- The image holds what the check accepts: if the slave has a map, then the engine knows its
outputs, and an entry that passes the check ends within them.  The byte of a truth value is
there even if the entry has no bits. -/
def Holds (master : Master ε) (slave : Int) (entry : EntryIndex) (value : Value) : Prop :=
  ∀ map, master.maps.get? slave = some map →
    ∃ range, Engine.outputRange slave master.engine = .ok range master.engine ∧
      ∀ info data, map.checkWrite slave entry value = .ok (info, data) →
        info.byteOffset + info.byteCount ≤ (range.read (Engine.image master.engine)).length ∧
          (value.dataType = .bool →
            info.byteOffset < (range.read (Engine.image master.engine)).length)

variable {master : Master ε} {slave : Int} {entry : EntryIndex} {value : Value} {map : PdoMap}

section Outcomes

omit [Engine ε] in
theorem map_of_known (known : master.maps.get? slave = some map) :
    Master.map slave master = .ok map master := by
  rw [Master.map, known]

omit [Engine ε] in
theorem map_of_unknown (unknown : master.maps.get? slave = none) :
    Master.map slave master = .error (.slaveNotFound slave) master := by
  rw [Master.map, unknown]

omit [Engine ε] in
theorem faultClass?_checkValue (known : master.maps.get? slave = some map) :
    faultClass? (checkValue slave entry value master) =
      match map.checkWrite slave entry value with
      | .ok _ => none
      | .error fault => some fault.faultClass := by
  rw [checkValue, bind_of_ok (map_of_known known)]
  cases checked : map.checkWrite slave entry value with
  | ok accepted => rfl
  | error fault => rfl

theorem faultClass?_setValue (known : master.maps.get? slave = some map) {range : ImageRange}
    (asked : Engine.outputRange slave master.engine = .ok range master.engine) :
    faultClass? (setValue slave entry value master) =
      match map.write slave (range.read (Engine.image master.engine)) entry value with
      | .ok _ => none
      | .error fault => some fault.faultClass := by
  have image : image master = .ok (Engine.image master.engine) master := rfl
  rw [setValue, bind_of_ok (map_of_known known), bind_of_ok (ask_unchanged_of_ok asked),
    bind_of_ok image]
  cases written : map.write slave (range.read (Engine.image master.engine)) entry value with
  | ok changed => rfl
  | error fault => rfl

theorem faultClass?_setValue_of_missing (known : master.maps.get? slave = some map)
    (missing : Engine.outputRange slave master.engine =
      .error (.slaveNotFound slave) master.engine) :
    faultClass? (setValue slave entry value master) = some .slaveNotFound := by
  rw [setValue, bind_of_ok (map_of_known known), bind_of_error (ask_unchanged_of_error missing)]
  rfl

omit [Engine ε] in
/-- A write is queued for a slave with a map only if it passes the check. -/
theorem faultClass?_checkValue_of_queue {place : Nat} {found : Handle}
    (holds : master.handles[place]? = some found) (known : master.maps.has found.slave = true)
    (queued : faultClass? (queue place entry value master) = none) :
    faultClass? (checkValue found.slave entry value master) = none := by
  cases outcome : checkValue found.slave entry value master with
  | ok result after => rfl
  | error fault after =>
      have look : handle place master = .ok found master := by
        rw [handle, bind_of_ok (get_apply master), holds]
        rfl
      have refused : queue place entry value master = .error fault after := by
        rw [queue, bind_of_ok look, bind_of_ok (get_apply master), if_pos known]
        exact bind_of_error outcome
      rw [refused] at queued
      cases queued

end Outcomes

/-- A write that passes the check succeeds exactly if the image holds its entry. -/
theorem faultClass?_setValue_eq_none_iff [Engine.KnowsRanges ε] (gapless : map.Gapless)
    (known : master.maps.get? slave = some map) {info : MappedEntry} {data : Bytes}
    (accepted : map.checkWrite slave entry value = .ok (info, data)) :
    faultClass? (setValue slave entry value master) = none ↔
      Holds master slave entry value := by
  rcases Engine.KnowsRanges.outputRange slave master.engine with ⟨range, asked⟩ | missing
  · have written : (∃ changed, map.write slave (range.read (Engine.image master.engine)) entry
        value = .ok changed) ↔ _ := PdoMap.exists_write_iff gapless accepted
    rw [faultClass?_setValue known asked]
    constructor
    · intro succeeded other otherKnown
      cases known.symm.trans otherKnown
      refine ⟨range, asked, ?_⟩
      intro otherInfo otherData otherAccepted
      cases accepted.symm.trans otherAccepted
      apply written.mp
      cases outcome : map.write slave (range.read (Engine.image master.engine)) entry value with
      | ok changed => exact ⟨changed, rfl⟩
      | error fault =>
          rw [outcome] at succeeded
          cases succeeded
    · intro holds
      obtain ⟨other, otherAsked, inside⟩ := holds map known
      cases asked.symm.trans otherAsked
      obtain ⟨changed, outcome⟩ := written.mpr (inside info data accepted)
      rw [outcome]
  · rw [faultClass?_setValue_of_missing known missing]
    constructor
    · intro succeeded
      cases succeeded
    · intro holds
      obtain ⟨range, asked, _⟩ := holds map known
      cases missing.symm.trans asked

/-- A write that the check refuses fails with the fault of the check exactly if the engine
knows the outputs of the slave. -/
theorem faultClass?_setValue_eq_refused_iff [Engine.KnowsRanges ε]
    (known : master.maps.get? slave = some map) {fault : Fault}
    (refused : map.checkWrite slave entry value = .error fault) :
    some fault.faultClass = faultClass? (setValue slave entry value master) ↔
      Holds master slave entry value := by
  rcases Engine.KnowsRanges.outputRange slave master.engine with ⟨range, asked⟩ | missing
  · refine iff_of_true ?_ ?_
    · rw [faultClass?_setValue known asked, PdoMap.write, refused]
      rfl
    · intro other found
      cases known.symm.trans found
      refine ⟨range, asked, ?_⟩
      intro info data accepted
      cases refused.symm.trans accepted
  · refine iff_of_false ?_ ?_
    · rw [faultClass?_setValue_of_missing known missing]
      intro same
      have classes := PdoMap.checkWrite_error_class refused
      rw [Option.some.inj same] at classes
      simp at classes
    · intro holds
      obtain ⟨range, asked, _⟩ := holds map known
      cases missing.symm.trans asked

/-- In a master that commands lead to, a check and a write of a value fail alike exactly if
the image holds what the check accepts.  A write that was queued in that state can be applied
in it exactly then, too. -/
theorem agree_iff_holds [Engine.KnowsRanges ε] (reachable : Reachable master) (slave : Int)
    (entry : EntryIndex) (value : Value) :
    (Agree master slave entry value ↔ Holds master slave entry value) ∧
      ∀ place handle, master.handles[place]? = some handle → handle.slave = slave →
        master.maps.has slave = true → faultClass? (queue place entry value master) = none →
          (faultClass? (setValue slave entry value master) = none ↔
            Holds master slave entry value) := by
  cases known : master.maps.get? slave with
  | none =>
      refine ⟨?_, ?_⟩
      · have agree : Agree master slave entry value := by
          rw [Agree, checkValue, setValue, bind_of_error (map_of_unknown known),
            bind_of_error (map_of_unknown known)]
        refine iff_of_true agree ?_
        intro map found
        cases known.symm.trans found
      · intro place handle _ _ has
        simp [Table.has, known] at has
  | some map =>
      have gapless := reachable.mapsGapless slave map known
      rw [Agree, faultClass?_checkValue known]
      cases checked : map.checkWrite slave entry value with
      | ok accepted =>
          obtain ⟨info, data⟩ := accepted
          have written := faultClass?_setValue_eq_none_iff gapless known checked
          exact ⟨eq_comm.trans written, fun _ _ _ _ _ _ => written⟩
      | error fault =>
          refine ⟨faultClass?_setValue_eq_refused_iff known checked, ?_⟩
          intro place handle found slaveEq has queued
          subst slaveEq
          have accepted := faultClass?_checkValue_of_queue found has queued
          rw [faultClass?_checkValue known, checked] at accepted
          cases accepted

/-- A slave that maps two bytes of outputs, but has one byte in the image. -/
def shortSlave : SimulatedSlave :=
  { SimulatedSlave.plain with
    outputBytes := 1
    mailbox := [
      (⟨0x1c00, 0⟩, [.data [3]]), (⟨0x1c00, 3⟩, [.data [3]]),
      (⟨0x1c12, 0⟩, [.data [1]]), (⟨0x1c12, 1⟩, [.data [0x00, 0x16]]),
      (⟨0x1600, 0⟩, [.data [1]]),
      (⟨0x1600, 1⟩, [.data (Layout.mappingWord 0x7000 1 16)])] }

def shortMaster : Master MemoryEngine :=
  final ((Command.openBus false).perform (final ((Command.register 0 false).perform
    (idle BusConfig.defaults none
      (MemoryEngine.ofSegment { Segment.bare with slaves := [shortSlave] })))))

theorem reachable_shortMaster : Reachable shortMaster :=
  Reachable.step (Reachable.step (Reachable.idle _ _ _) _) _

/-- A write to an entry that the image is too short for passes the check and is queued, and
fails later; a value of a wrong size fails both. -/
theorem agree_iff_holds_shortMaster :
    ¬ Agree shortMaster 0 ⟨0x7000, 1⟩ ⟨.u16, .int 1⟩ ∧
      ¬ Holds shortMaster 0 ⟨0x7000, 1⟩ ⟨.u16, .int 1⟩ ∧
      faultClass? (queue 0 ⟨0x7000, 1⟩ ⟨.u16, .int 1⟩ shortMaster) = none ∧
      faultClass? (setValue 0 ⟨0x7000, 1⟩ ⟨.u16, .int 1⟩ shortMaster) = some .valueMismatch ∧
      Agree shortMaster 0 ⟨0x7000, 1⟩ ⟨.u8, .int 1⟩ ∧
      Holds shortMaster 0 ⟨0x7000, 1⟩ ⟨.u8, .int 1⟩ := by
  have checked : faultClass? (checkValue 0 ⟨0x7000, 1⟩ ⟨.u16, .int 1⟩ shortMaster) = none := by
    decide +kernel
  have written : faultClass? (setValue 0 ⟨0x7000, 1⟩ ⟨.u16, .int 1⟩ shortMaster) =
      some .valueMismatch := by
    decide +kernel
  have queued : faultClass? (queue 0 ⟨0x7000, 1⟩ ⟨.u16, .int 1⟩ shortMaster) = none := by
    decide +kernel
  have differ : ¬ Agree shortMaster 0 ⟨0x7000, 1⟩ ⟨.u16, .int 1⟩ := by
    rw [Agree, checked, written]
    decide
  have agree : Agree shortMaster 0 ⟨0x7000, 1⟩ ⟨.u8, .int 1⟩ := by
    rw [Agree]
    decide +kernel
  exact ⟨differ,
    (agree_iff_holds reachable_shortMaster 0 ⟨0x7000, 1⟩ ⟨.u16, .int 1⟩).1.not.mp differ,
    queued, written, agree,
    (agree_iff_holds reachable_shortMaster 0 ⟨0x7000, 1⟩ ⟨.u8, .int 1⟩).1.mp agree⟩

end Master

end Fieldbus
