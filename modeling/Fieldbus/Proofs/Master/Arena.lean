import Fieldbus.Proofs.Engine.Arena
import Fieldbus.Proofs.Master.Courses
import Fieldbus.Proofs.Master.Maps
import Fieldbus.Proofs.Pdo.Write
import Fieldbus.Segment.Stack

/-!
# The arena of a master

A master over a frame stack writes into the image of its engine in many ways: it clears outputs,
sets values, and takes in what slaves sent.  None of them changes the size of the image, because
the maps of a master are gapless.  Whatever a caller does with the master and with its engine, the
arena stays well-formed, and only laying out the image and giving it up change it.
-/

namespace Fieldbus

namespace Master

open Fieldbus.Action StackEngine

variable {σ α : Type} [Stack σ] {arena : Arena}

def HasArena (arena : Arena) (master : Master (StackEngine σ)) : Prop :=
  Has arena master.engine

/-- The maps of a master are gapless, and its engine has a given arena. -/
structure Fitted (arena : Arena) (master : Master (StackEngine σ)) : Prop where
  gapless : MapsGapless master
  has : HasArena arena master

instance : AllowsTalks (Preserve (HasArena (σ := σ) arena)) where
  notices _ _ := id
  talks := preserve_inSession StackEngine.moves_request

omit [Stack σ] in
theorem Fitted.ask {master : Master (StackEngine σ)} (fitted : Fitted arena master)
    {request : Action (StackEngine σ) α} {laid : Arena}
    (has : Has laid (final (request master.engine))) :
    Fitted laid (final (Master.ask request master)) where
  gapless := by
    have kept : Moves (Preserve MapsGapless) (Master.ask request) := moves_ask request
    exact kept master fitted.gapless
  has := by
    rw [HasArena, engine_ask]
    exact has

omit [Stack σ] in
theorem fitted_ask {request : Action (StackEngine σ) α}
    (keeps : Moves (Preserve (Has arena)) request) :
    Moves (Preserve (Fitted arena)) (ask request) :=
  fun _ fitted => fitted.ask (keeps _ fitted.has)

instance : AllowsTalks (Preserve (Fitted (σ := σ) arena)) where
  notices _ _ fitted := ⟨fitted.gapless, fitted.has⟩
  talks {_ action} talks master fitted := by
    have gapless : Moves (Preserve MapsGapless) (inSession action) := moves_inSession action
    have has : Moves (Preserve (HasArena arena)) (inSession action) := AllowsTalks.talks talks
    exact ⟨gapless master fitted.gapless, has master fitted.has⟩

section Writes

variable {master : Master (StackEngine σ)} {slave : Int} {range : ImageRange}

omit [Stack σ] in
theorem Fitted.stop_le (fitted : Fitted arena master)
    (known : ImageRange.ofSlave master.engine.outputs slave = .ok range) :
    range.stop ≤ master.engine.image.length := by
  obtain ⟨position, _, found⟩ := ImageRange.ofSlave_eq_ok_iff.mp known
  rw [fitted.has.outputs_eq] at found
  rw [fitted.has.size_eq]
  exact fitted.has.wellFormed.stop_le_of_output (List.mem_of_getElem? found)

/-- Data of the length of the outputs keep the arena. -/
theorem Fitted.write (fitted : Fitted arena master)
    (known : ImageRange.ofSlave master.engine.outputs slave = .ok range) {data : Bytes}
    (fits : data.length = range.length) :
    Fitted arena (final (setImage (range.write master.engine.image data) master)) :=
  ⟨fitted.gapless, fitted.has.withImage (ImageRange.length_write (fitted.stop_le known) fits)⟩

theorem ask_outputRange (slave : Int) (master : Master (StackEngine σ)) :
    ask (Engine.outputRange slave) master =
      ofExcept (ImageRange.ofSlave master.engine.outputs slave) master := by
  have answer : Engine.outputRange slave master.engine =
      ofExcept (ImageRange.ofSlave master.engine.outputs slave) master.engine := rfl
  cases known : ImageRange.ofSlave master.engine.outputs slave with
  | ok range =>
      rw [known] at answer
      exact ask_unchanged_of_ok answer
  | error fault =>
      rw [known] at answer
      exact ask_unchanged_of_error answer

theorem fitted_zeroOutputs (slave : Int) :
    Moves (Preserve (Fitted arena)) (zeroOutputs (ε := StackEngine σ) slave) := by
  intro master fitted
  have asked := ask_outputRange slave master
  cases known : ImageRange.ofSlave master.engine.outputs slave with
  | error fault =>
      rw [known] at asked
      rw [zeroOutputs, bind_of_error asked]
      exact fitted
  | ok range =>
      rw [known] at asked
      rw [zeroOutputs, bind_of_ok asked]
      exact fitted.write known (Bytes.length_zeros _)

theorem fitted_setValue (slave : Int) (entry : EntryIndex) (value : Value) :
    Moves (Preserve (Fitted arena)) (setValue (ε := StackEngine σ) slave entry value) := by
  intro master fitted
  have asked := ask_outputRange slave master
  cases mapped : master.maps.get? slave with
  | none =>
      have missing : Master.map slave master = .error (.slaveNotFound slave) master := by
        rw [Master.map, mapped]
      rw [setValue, bind_of_error missing]
      exact fitted
  | some map =>
      have found : Master.map slave master = .ok map master := by
        rw [Master.map, mapped]
      rw [setValue, bind_of_ok found]
      cases known : ImageRange.ofSlave master.engine.outputs slave with
      | error fault =>
          rw [known] at asked
          rw [bind_of_error asked]
          exact fitted
      | ok range =>
          rw [known] at asked
          have image : image master = .ok master.engine.image master := rfl
          rw [bind_of_ok asked, bind_of_ok image]
          cases written : map.write slave (range.read master.engine.image) entry value with
          | error fault => exact fitted
          | ok changed =>
              obtain ⟨_, _, _, lengthEq, _⟩ :=
                PdoMap.bit?_of_write (fitted.gapless slave map mapped) written
              rw [ImageRange.length_read (fitted.stop_le known)] at lengthEq
              exact fitted.write known lengthEq

end Writes

instance : AllowsOperation (Preserve (Fitted (σ := σ) arena)) where
  tells told master fitted := by
    cases told <;> exact ⟨fitted.gapless, fitted.has.of_arena_eq rfl⟩
  zeroOutputs := fitted_zeroOutputs
  setValue := fitted_setValue
  lastWkc _ _ fitted := ⟨fitted.gapless, fitted.has⟩
  okCount _ _ fitted := ⟨fitted.gapless, fitted.has⟩
  errorCount _ _ fitted := ⟨fitted.gapless, fitted.has⟩
  handles _ _ fitted := ⟨fitted.gapless, fitted.has⟩
  running _ _ fitted := ⟨fitted.gapless, fitted.has⟩
  inOp _ _ fitted := ⟨fitted.gapless, fitted.has⟩

section Passes

theorem fitted_furnish (count : Nat) :
    Moves (Preserve (Fitted arena)) (furnish (ε := StackEngine σ) count) := by
  apply moves_furnish
  intro master fitted
  have gapless := discoverAll_keeps_gapless count master fitted.gapless
  have kept : Preserve (HasArena arena) master (final (discoverAll count master)) :=
    moves_discoverAll (fun _ _ _ _ => id) count master
  exact ⟨gapless, kept fitted.has⟩

/-- The engine when a command has laid out its image, if it runs a configuration pass that gets so
far. -/
def Command.mapped? : Command → Master (StackEngine σ) → Option (StackEngine σ)
  | configure, master => master.mapped?
  | openBus _, master =>
      match ask (Engine.connect master.config.adapter) master with
      | .error _ _ => none
      | .ok _ bound => bound.onceBound.mapped?
  | _, _ => none

/-- Whether a command can close the bus. -/
def Command.closes : Command → Bool
  | openBus _ | close => true
  | _ => false

/-- A configuration pass leaves the arena as it was, or that of the image that it laid out. -/
theorem exists_fitted_configure {master : Master (StackEngine σ)} (fitted : Fitted arena master) :
    ∃ laid, Fitted laid (final (configure master)) ∧
      (laid = arena ∨ ∃ engine, master.mapped? = some engine ∧ laid = engine.arena) := by
  have readies : Moves (Preserve (Fitted arena)) (ready (ε := StackEngine σ)) := moves_ready
  have readied : Fitted arena (final (ready master)) := readies master fitted
  cases passCourse master with
  | unready _ readying outcome =>
      rw [readying] at readied
      rw [outcome]
      exact ⟨arena, readied, Or.inl rfl⟩
  | @unmapped count between fault engine _ readying mapping outcome =>
      rw [readying] at readied
      have has := (readied.has : Has arena between.engine)
      rw [outcome]
      refine ⟨arena, ⟨allGapless_nil, ?_⟩, Or.inl rfl⟩
      exact has.of_mapImage_error mapping
  | @mapped count between size engine mapped readying mapping outcome =>
      have laid : Fitted engine.arena (between.blanked engine) :=
        ⟨allGapless_nil, has_arena_of_mapImage mapping⟩
      rw [outcome]
      exact ⟨engine.arena, fitted_furnish count _ laid, Or.inr ⟨engine, mapped, rfl⟩⟩

end Passes

section Lifecycle

variable {master : Master (StackEngine σ)}

theorem fitted_quiet : Moves (Preserve (Fitted arena)) (quiet (ε := StackEngine σ)) :=
  moves_quiet moves_zeroOutputs (fun _ fitted => ⟨fitted.gapless, fitted.has⟩) moves_stop

/-- Closing a bus that was opened gives up the image, and closing any other keeps the arena. -/
theorem fitted_close (fitted : Fitted arena master) :
    Fitted (if master.opened then Arena.empty else arena) (final (close master)) := by
  obtain ⟨quieted, quieting, isQuiet⟩ := exists_quiet master
  have quietFitted : Fitted arena quieted := (fitted_quiet).of_ok quieting fitted
  rw [close_of_quieted quieting]
  cases opened : master.opened with
  | false =>
      rw [leave_of_closed (isQuiet.opened.trans opened)]
      exact quietFitted
  | true =>
      let farewelled := final (farewell master.running quieted quieted)
      have farewells : Moves (Preserve MapsGapless) (farewell master.running quieted) :=
        moves_farewell moves_exchange _ quieted
      have gapless : MapsGapless farewelled := farewells quieted quietFitted.gapless
      have released : Fitted Arena.empty (final (disconnect farewelled)) := by
        rw [disconnect_of_ok (disconnect_apply farewelled.engine)]
        exact ⟨gapless, Arena.wellFormed_empty, rfl⟩
      have ended : Preserve (Fitted Arena.empty) (final (disconnect farewelled))
          (final (leave master.running quieted)) := leave_of_opened (isQuiet.opened.trans opened) _
      exact ended released

theorem exists_fitted_opening (operational : Bool) (fitted : Fitted arena master) :
    ∃ laid, Fitted laid (final (opening operational master)) ∧
      (laid = arena ∨ ∃ engine, master.mapped? = some engine ∧ laid = engine.arena) := by
  obtain ⟨laid, configured, told⟩ := exists_fitted_configure fitted
  have goesOn : Preserve (Fitted laid) (final (configure master))
      (final (opening operational master)) := moves_from_configured operational master
  exact ⟨laid, goesOn configured, told⟩

/-- Opening leaves the arena as it was, or that of the image that its configuration pass laid
out, or it closed the bus again and gave up the image. -/
theorem exists_fitted_openBus (operational : Bool) (fitted : Fitted arena master) :
    ∃ laid, Fitted laid (final (openBus operational master)) ∧
      (laid = arena ∨
        ((final (openBus operational master)).opened = false ∧ laid = Arena.empty) ∨
        ∃ engine, (Command.openBus operational).mapped? master = some engine ∧
          laid = engine.arena) := by
  have connected : Fitted arena (final (ask (Engine.connect master.config.adapter) master)) :=
    fitted_ask (has_connect master.config.adapter) master fitted
  rw [Command.mapped?]
  cases openCourse operational master with
  | unbound binding outcome =>
      rw [binding] at connected
      rw [outcome]
      exact ⟨arena, connected, Or.inl rfl⟩
  | @kept bound binding _ outcome =>
      rw [binding] at connected
      have fittedBound : Fitted arena bound.onceBound := ⟨connected.gapless, connected.has⟩
      obtain ⟨laid, fittedAfter, told⟩ := exists_fitted_opening operational fittedBound
      rw [binding, outcome]
      exact ⟨laid, fittedAfter, told.imp_right Or.inr⟩
  | @closed bound between _ binding failing _ opened outcome =>
      rw [binding] at connected
      have fittedBound : Fitted arena bound.onceBound := ⟨connected.gapless, connected.has⟩
      obtain ⟨laid, fittedBetween, _⟩ := exists_fitted_opening operational fittedBound
      rw [failing] at fittedBetween
      have fittedClosed := fitted_close (show Fitted laid between from fittedBetween)
      rw [if_pos opened] at fittedClosed
      rw [outcome]
      exact ⟨Arena.empty, fittedClosed, Or.inr (Or.inl ⟨(shut_close between).1, rfl⟩)⟩

/-- What a command makes of the arena: it stays, or the command closed the bus and the arena is
empty, or the configuration pass of the command laid out the image. -/
def Command.Arranges (command : Command) (before after : Master (StackEngine σ)) : Prop :=
  after.engine.arena = before.engine.arena ∨
    (command.closes = true ∧ after.opened = false ∧ after.engine.arena = Arena.empty) ∨
    ∃ engine, command.mapped? before = some engine ∧ after.engine.arena = engine.arena

theorem exists_fitted_perform (command : Command) (fitted : Fitted arena master) :
    (∃ laid, Fitted laid (final (command.perform master))) ∧
      command.Arranges master (final (command.perform master)) := by
  have arenaEq := fitted.has.arenaEq
  have arranges {after : Master (StackEngine σ)} {laid : Arena} (fittedAfter : Fitted laid after)
      (told : laid = arena ∨ (command.closes = true ∧ after.opened = false ∧ laid = Arena.empty) ∨
        ∃ engine, command.mapped? master = some engine ∧ laid = engine.arena) :
      (∃ laid, Fitted laid after) ∧ command.Arranges master after := by
    refine ⟨⟨laid, fittedAfter⟩, ?_⟩
    rw [Command.Arranges, fittedAfter.has.arenaEq, fitted.has.arenaEq]
    exact told
  by_cases plain : command.configures = false ∧ command ≠ .close
  · have kept : Moves (Preserve (Fitted arena)) (command.perform (ε := StackEngine σ)) :=
      moves_perform_of_plain plain.1 plain.2
    exact arranges (kept master fitted) (Or.inl rfl)
  · cases command with
    | openBus operational =>
        obtain ⟨laid, fittedAfter, told⟩ := exists_fitted_openBus operational fitted
        refine arranges fittedAfter (told.imp_right (Or.imp_left ?_))
        rintro ⟨closed, empty⟩
        exact ⟨rfl, closed, empty⟩
    | configure =>
        obtain ⟨laid, fittedAfter, told⟩ := exists_fitted_configure fitted
        exact arranges fittedAfter (told.imp_right Or.inr)
    | close =>
        have closed := fitted_close fitted
        cases opened : master.opened with
        | false =>
            simp only [opened, Bool.false_eq_true, if_false] at closed
            exact arranges closed (Or.inl rfl)
        | true =>
            simp only [opened, if_true] at closed
            exact arranges closed (Or.inr (Or.inl ⟨rfl, (shut_close master).1, rfl⟩))
    | _ => exact absurd ⟨rfl, by simp⟩ plain

end Lifecycle

/-- The masters that commands and requests to their engines lead to, from masters that have not
been opened. -/
inductive Operated : Master (StackEngine σ) → Prop where
  | idle (config : BusConfig) (pdoConfig : Option PdoConfig) (stack : σ) :
      Operated (Master.idle config pdoConfig (StackEngine.ofStack stack))
  | command {master : Master (StackEngine σ)} (operated : Operated master) (command : Command) :
      Operated (final (command.perform master))
  | request {α : Type} {master : Master (StackEngine σ)} {request : Action (StackEngine σ) α}
      (operated : Operated master) (routine : StackEngine.IsRoutine request) :
      Operated (final (ask request master))
  | connect {master : Master (StackEngine σ)} (operated : Operated master) (adapter : Payload) :
      Operated (final (ask (Engine.connect adapter) master))
  | mapImage {master : Master (StackEngine σ)} (operated : Operated master) :
      Operated (final (ask Engine.mapImage master))
  | disconnect {master : Master (StackEngine σ)} (operated : Operated master) :
      Operated (final (ask Engine.disconnect master))

theorem Operated.performAll {master : Master (StackEngine σ)} (operated : Operated master)
    (commands : List Command) : Operated (Command.performAll commands master) := by
  induction commands generalizing master with
  | nil => exact operated
  | cons command rest ih => exact ih (operated.command command)

/-- What is true of the arena of a master, and of what is done with the master and its engine
next. -/
structure KeepsArena (master : Master (StackEngine σ)) : Prop where
  wellFormed : master.engine.arena.WellFormed
  apart : (master.engine.outputs ++ master.engine.inputs).Pairwise ImageRange.Apart
  commands : ∀ command : Command, command.Arranges master (final (command.perform master))
  requests : ∀ {α : Type} {request : Action (StackEngine σ) α}, StackEngine.IsRoutine request →
    (final (request master.engine)).arena = master.engine.arena
  connects : ∀ adapter, (final (connect adapter master.engine)).arena = master.engine.arena
  maps : ∀ size after, mapImage master.engine = .ok size after →
    after.arena = Arena.ofSlaves (Stack.slaves after.stack)
  failsToMap : ∀ fault after, mapImage master.engine = .error fault after →
    after.outputs = master.engine.outputs ∧ after.inputs = master.engine.inputs ∧
      after.image = master.engine.image
  disconnects : (final (StackEngine.disconnect master.engine)).arena = Arena.empty

theorem Operated.exists_fitted {master : Master (StackEngine σ)} (operated : Operated master) :
    ∃ arena, Fitted arena master := by
  induction operated with
  | idle config pdoConfig stack =>
      exact ⟨Arena.empty, allGapless_nil, Arena.wellFormed_empty, rfl⟩
  | command _ command ih =>
      obtain ⟨arena, fitted⟩ := ih
      exact (exists_fitted_perform command fitted).1
  | request _ routine ih =>
      obtain ⟨arena, fitted⟩ := ih
      exact ⟨arena, fitted_ask (moves_routine routine) _ fitted⟩
  | connect _ adapter ih =>
      obtain ⟨arena, fitted⟩ := ih
      exact ⟨arena, fitted_ask (has_connect adapter) _ fitted⟩
  | @mapImage master _ ih =>
      obtain ⟨arena, fitted⟩ := ih
      obtain ⟨laid, has⟩ := fitted.has.exists_mapImage
      exact ⟨laid, fitted.ask has⟩
  | @disconnect master _ ih =>
      obtain ⟨arena, fitted⟩ := ih
      refine ⟨Arena.empty, fitted.ask ?_⟩
      have disconnected := disconnect_apply master.engine
      rw [show Engine.disconnect master.engine = _ from disconnected]
      exact ⟨Arena.wellFormed_empty, rfl⟩

/-- The arena of a master stays well-formed whatever is done with the master and its engine, and
only laying out the image and giving it up change it. -/
theorem keepsArena_of_operated {master : Master (StackEngine σ)} (operated : Operated master) :
    KeepsArena master := by
  obtain ⟨arena, fitted⟩ := operated.exists_fitted
  have arenaEq := fitted.has.arenaEq
  refine ⟨?_, ?_, ?_, ?_, ?_, ?_, ?_, ?_⟩
  · rw [arenaEq]
    exact fitted.has.wellFormed
  · have apart := fitted.has.wellFormed.consecutive.pairwise_apart
    rwa [← arenaEq] at apart
  · intro command
    exact (exists_fitted_perform command fitted).2
  · intro α request routine
    have kept : Moves (Preserve (Has arena)) request := moves_routine routine
    exact (kept _ fitted.has).arenaEq.trans arenaEq.symm
  · intro adapter
    have kept := has_connect adapter _ fitted.has
    exact kept.arenaEq.trans arenaEq.symm
  · intro size after mapped
    exact arena_of_mapImage mapped
  · intro fault after failed
    exact kept_of_mapImage_error failed
  · rw [disconnect_apply]
    rfl

/-- A master that has opened its bus and exchanged with two slaves, one of which has no inputs. -/
def pairedMaster : Master (StackEngine Segment) :=
  let sensor := { SimulatedSlave.plain with outputBytes := 3, inputs := some [1, 2] }
  let actuator := { SimulatedSlave.plain with outputBytes := 1 }
  Command.performAll [.openBus false, .exchange]
    (idle BusConfig.defaults none
      (StackEngine.ofStack { Segment.bare with slaves := [sensor, actuator] }))

/-- Four bytes of outputs and then two of inputs make an image of six, and no byte is left once
the bus is closed. -/
theorem keepsArena_pairedMaster :
    KeepsArena pairedMaster ∧
      pairedMaster.engine.arena = ⟨[⟨0, 3⟩, ⟨3, 1⟩], [⟨4, 2⟩, ⟨6, 0⟩], 6⟩ ∧
      pairedMaster.engine.image = [0, 0, 0, 0, 1, 2] ∧
      (final (close pairedMaster)).engine.arena = Arena.empty := by
  have operated : Operated pairedMaster := Operated.performAll (.idle _ _ _) _
  refine ⟨keepsArena_of_operated operated, ?_, ?_, ?_⟩
  · decide +kernel
  · decide +kernel
  · decide +kernel

end Master

end Fieldbus
