import Fieldbus.Proofs.Engine.LaidOut
import Fieldbus.Proofs.Master.Maps
import Fieldbus.Proofs.Master.Passes
import Fieldbus.Proofs.Pdo.Write

/-!
# The image of a reachable master

A master that has maps has an image that is laid out: the maps are made by configuration passes,
which lay out the image first, and no command breaks the layout later.  A value that is set
changes the outputs of its slave only.
-/

namespace Fieldbus

namespace Master

open Fieldbus.Action Engine Engine.Delivers Engine.Ranged

variable {ε : Type} [Engine ε]

def withImage (master : Master ε) (image : Bytes) : Master ε :=
  { master with session := { master.session with engine := Engine.setImage master.engine image } }

@[simp]
theorem engine_withImage (master : Master ε) (image : Bytes) :
    (master.withImage image).engine = Engine.setImage master.engine image :=
  rfl

@[simp]
theorem maps_withImage (master : Master ε) (image : Bytes) :
    (master.withImage image).maps = master.maps :=
  rfl

section Writes

variable [Ranged ε] {slave : Int} {entry : EntryIndex} {value : Value} {master after : Master ε}

theorem ask_outputRange_of_ok {range : ImageRange}
    (known : ImageRange.ofSlave (outputs master.engine) slave = .ok range) :
    ask (Engine.outputRange slave) master = .ok range master := by
  apply ask_unchanged_of_ok
  rw [outputRange_eq, known]
  rfl

theorem ask_outputRange_of_error {fault : Fault}
    (unknown : ImageRange.ofSlave (outputs master.engine) slave = .error fault) :
    ask (Engine.outputRange slave) master = .error fault master := by
  apply ask_unchanged_of_error
  rw [outputRange_eq, unknown]
  rfl

theorem ask_inputRange_of_ok {range : ImageRange}
    (known : ImageRange.ofSlave (inputs master.engine) slave = .ok range) :
    ask (Engine.inputRange slave) master = .ok range master := by
  apply ask_unchanged_of_ok
  rw [inputRange_eq, known]
  rfl

theorem ask_inputRange_of_error {fault : Fault}
    (unknown : ImageRange.ofSlave (inputs master.engine) slave = .error fault) :
    ask (Engine.inputRange slave) master = .error fault master := by
  apply ask_unchanged_of_error
  rw [inputRange_eq, unknown]
  rfl

/-- A value is written into the outputs of its slave, if the map and the engine know the slave
and the map takes the value. -/
structure Sets (slave : Int) (entry : EntryIndex) (value : Value) (master : Master ε)
    (map : PdoMap) (range : ImageRange) (changed : Bytes) : Prop where
  known : master.maps.get? slave = some map
  asked : ImageRange.ofSlave (outputs master.engine) slave = .ok range
  written : map.write slave (range.read (Engine.image master.engine)) entry value = .ok changed

theorem Sets.setValue {map : PdoMap} {range : ImageRange} {changed : Bytes}
    (sets : Sets slave entry value master map range changed) :
    setValue slave entry value master =
      .ok () (master.withImage (range.write (Engine.image master.engine) changed)) := by
  have found : Master.map slave master = .ok map master := by
    rw [Master.map, sets.known]
  have image : image master = .ok (Engine.image master.engine) master := rfl
  rw [Master.setValue, bind_of_ok found, bind_of_ok (ask_outputRange_of_ok sets.asked),
    bind_of_ok image, sets.written]
  rfl

/-- A value is set, or setting it fails and changes nothing. -/
theorem setValue_cases (slave : Int) (entry : EntryIndex) (value : Value) (master : Master ε) :
    (∃ map range changed, Sets slave entry value master map range changed) ∨
      ∃ fault, setValue slave entry value master = .error fault master := by
  cases known : master.maps.get? slave with
  | none =>
      have missing : Master.map slave master = .error (.slaveNotFound slave) master := by
        rw [Master.map, known]
      exact Or.inr ⟨_, bind_of_error missing⟩
  | some map =>
      have found : Master.map slave master = .ok map master := by
        rw [Master.map, known]
      have image : image master = .ok (Engine.image master.engine) master := rfl
      rw [setValue, bind_of_ok found]
      cases asked : ImageRange.ofSlave (outputs master.engine) slave with
      | error fault =>
          rw [bind_of_error (ask_outputRange_of_error asked)]
          exact Or.inr ⟨fault, rfl⟩
      | ok range =>
          rw [bind_of_ok (ask_outputRange_of_ok asked), bind_of_ok image]
          cases written : map.write slave (range.read (Engine.image master.engine)) entry value with
          | error fault => exact Or.inr ⟨fault, rfl⟩
          | ok changed => exact Or.inl ⟨map, range, changed, known, asked, written⟩

theorem exists_of_setValue_ok (set : setValue slave entry value master = .ok () after) :
    ∃ map range changed, Sets slave entry value master map range changed ∧
      after = master.withImage (range.write (Engine.image master.engine) changed) := by
  rcases setValue_cases slave entry value master with ⟨map, range, changed, sets⟩ | ⟨fault, failed⟩
  · rw [sets.setValue] at set
    cases set
    exact ⟨map, range, changed, sets, rfl⟩
  · rw [failed] at set
    cases set

theorem zeroOutputs_cases (slave : Int) (master : Master ε) :
    (∃ range, ImageRange.ofSlave (outputs master.engine) slave = .ok range ∧
      zeroOutputs slave master = .ok () (master.withImage
        (range.write (Engine.image master.engine) (Bytes.zeros range.length)))) ∨
      ∃ fault, zeroOutputs slave master = .error fault master := by
  rw [zeroOutputs]
  cases asked : ImageRange.ofSlave (outputs master.engine) slave with
  | error fault =>
      rw [bind_of_error (ask_outputRange_of_error asked)]
      exact Or.inr ⟨fault, rfl⟩
  | ok range =>
      rw [bind_of_ok (ask_outputRange_of_ok asked)]
      exact Or.inl ⟨range, rfl, rfl⟩

theorem stop_le_of_ofSlave {range : ImageRange} (laid : LaidOut master.engine)
    (asked : ImageRange.ofSlave (outputs master.engine) slave = .ok range) :
    range.stop ≤ (Engine.image master.engine).length := by
  obtain ⟨position, _, found⟩ := ImageRange.ofSlave_eq_ok_iff.mp asked
  exact laid.outputs_stop_le found

theorem Sets.length_changed {map : PdoMap} {range : ImageRange} {changed : Bytes}
    (sets : Sets slave entry value master map range changed) (laid : LaidOut master.engine)
    (gapless : MapsGapless master) : changed.length = range.length := by
  obtain ⟨_, _, _, lengthEq, _⟩ := PdoMap.bit?_of_write (gapless slave map sets.known) sets.written
  rw [lengthEq, ImageRange.length_read (stop_le_of_ofSlave laid sets.asked)]

end Writes

section Invariant

/-- The maps are gapless, and if there are any, the image is laid out. -/
structure Mapped [Ranged ε] (master : Master ε) : Prop where
  gapless : MapsGapless master
  laidOut : master.maps ≠ [] → LaidOut master.engine

theorem Mapped.laidOut_of_known [Ranged ε] {master : Master ε} {slave : Int} {map : PdoMap}
    (mapped : Mapped master) (known : master.maps.get? slave = some map) :
    LaidOut master.engine := by
  apply mapped.laidOut
  intro none
  rw [none] at known
  cases known

theorem Mapped.withImage [Ranged ε] {master : Master ε} {image : Bytes} (mapped : Mapped master)
    (lengthEq : LaidOut master.engine → image.length = (Engine.image master.engine).length) :
    Mapped (master.withImage image) where
  gapless := mapped.gapless
  laidOut some := by
    have laid := mapped.laidOut some
    exact laid.setImage (lengthEq laid)

variable [LaysOut ε]

def ImageLaidOut (master : Master ε) : Prop :=
  LaidOut master.engine

theorem laidOut_inSession {α : Type} {action : Action (Session ε) α}
    (talks : Session.Talks IsRequest Session.anyFault action) :
    Moves (Preserve ImageLaidOut) (inSession action) :=
  preserve_inSession LaysOut.laidOut_request talks

instance : AllowsTalks (Preserve (ImageLaidOut (ε := ε))) where
  notices _ _ := id
  talks talks := laidOut_inSession (talks.mono IsRoutine.isRequest)

/-- Commands that leave the maps alone keep what they keep of the image. -/
theorem mapped_of_keep {before after : Master ε} (mapsEq : after.maps = before.maps)
    (laid : Preserve ImageLaidOut before after) (mapped : Mapped before) : Mapped after where
  gapless := by
    intro slave map found
    rw [mapsEq] at found
    exact mapped.gapless slave map found
  laidOut some := by
    rw [mapsEq] at some
    exact laid (mapped.laidOut some)

theorem mapped_inSession {α : Type} {action : Action (Session ε) α}
    (talks : Session.Talks IsRequest Session.anyFault action) :
    Moves (Preserve Mapped) (inSession action) := by
  intro master
  have kept : Keep Master.maps master (final (inSession action master)) :=
    moves_inSession action master
  exact mapped_of_keep kept (laidOut_inSession talks master)

instance : AllowsEngine (Preserve (Mapped (ε := ε))) where
  notices _ _ mapped := ⟨mapped.gapless, mapped.laidOut⟩
  talks talks := mapped_inSession (talks.mono IsRoutine.isRequest)
  tells told master mapped :=
    ⟨mapped.gapless, fun some => LaysOut.laidOut_event told _ (mapped.laidOut some)⟩
  zeroOutputs slave master mapped := by
    rcases zeroOutputs_cases slave master with ⟨range, asked, cleared⟩ | ⟨fault, failed⟩
    · rw [cleared]
      apply mapped.withImage
      intro laid
      exact ImageRange.length_write (stop_le_of_ofSlave laid asked) (Bytes.length_zeros _)
    · rw [failed]
      exact mapped
  setValue slave entry value master mapped := by
    rcases setValue_cases slave entry value master with
      ⟨map, range, changed, sets⟩ | ⟨fault, failed⟩
    · rw [sets.setValue]
      apply mapped.withImage
      intro laid
      exact ImageRange.length_write (stop_le_of_ofSlave laid sets.asked)
        (sets.length_changed laid mapped.gapless)
    · rw [failed]
      exact mapped

instance : AllowsStates (Preserve (Mapped (ε := ε))) where
  connects adapter := mapped_inSession (.ask (.connect adapter))
  disconnects := mapped_inSession (.ask .disconnect)
  lastWkc _ _ mapped := ⟨mapped.gapless, mapped.laidOut⟩
  okCount _ _ mapped := ⟨mapped.gapless, mapped.laidOut⟩
  errorCount _ _ mapped := ⟨mapped.gapless, mapped.laidOut⟩
  handles _ _ mapped := ⟨mapped.gapless, mapped.laidOut⟩
  running _ _ mapped := ⟨mapped.gapless, mapped.laidOut⟩
  opened _ _ mapped := ⟨mapped.gapless, mapped.laidOut⟩
  inOp _ _ mapped := ⟨mapped.gapless, mapped.laidOut⟩

theorem mapped_of_nil {master : Master ε} (none : master.maps = []) : Mapped master where
  gapless := by
    rw [MapsGapless, none]
    exact allGapless_nil
  laidOut some := absurd none some

theorem mapped_layOut : Moves (Preserve Mapped) (layOut (ε := ε)) := by
  refine moves_layOut ?_ (mapped_inSession (.ask .mapImage))
  intro master _
  exact mapped_of_nil rfl

theorem laidOut_of_layOut {master after : Master ε} (laid : layOut master = .ok () after) :
    LaidOut after.engine := by
  obtain ⟨_, cleared, _, rest⟩ := bind_eq_ok_iff.mp laid
  obtain ⟨size, mapped, mapping, clocked⟩ := bind_eq_ok_iff.mp rest
  obtain ⟨engine, succeeded, rfl⟩ := exists_of_ask_ok mapping
  have kept : Preserve ImageLaidOut _ after := (moves_request .configureClocks).of_ok clocked
  exact kept (LaysOut.laidOut_mapImage succeeded)

/-- What a pass makes of the maps and of the image. -/
theorem mapped_survey (count : Nat) : Moves (Preserve Mapped) (survey (ε := ε) count) := by
  refine Moves.bind_of_ok mapped_layOut ?_
  intro master _ between laid mapped
  have gapless := discoverAll_keeps_gapless count between mapped.gapless
  have kept : Preserve ImageLaidOut between (final (discoverAll count between)) := by
    apply moves_discoverAll
    intro _ _ _ _
    exact id
  exact ⟨gapless, fun _ => kept (laidOut_of_layOut laid)⟩

theorem mapped_configure : Moves (Preserve Mapped) (configure (ε := ε)) := by
  rw [configure_eq]
  refine Moves.bind moves_ready ?_
  intro count
  refine Moves.bind (mapped_survey count) ?_
  intro _
  refine Moves.bind Moves.get ?_
  intro master
  refine Moves.bind (moves_validateAll _) ?_
  intro _
  exact moves_insistOnDiscovery

/-- A reachable master that has a map has an image that is laid out. -/
theorem Reachable.mapped {master : Master ε} (reachable : Reachable master) : Mapped master := by
  apply reachable.invariant
  · intro config pdoConfig engine
    exact mapped_of_nil rfl
  · intro command
    exact moves_perform mapped_configure command

end Invariant

end Master

end Fieldbus
