import Fieldbus.Proofs.Master.Closing

/-!
# Opening

A master is opened in two stages: the engine is bound, and the bus is configured and, if
asked for, brought to the operational state.  A fault of the library in the second stage closes
the master again.  Any other fault leaves the engine bound.  The main statement says so by the
calls that the engine gets.
-/

namespace Fieldbus

def EngineCall.isDisconnect : EngineCall → Bool
  | disconnect => true
  | _ => false

namespace Recorded

open Fieldbus.Action

variable {φ σ κ α : Type}

theorem calls_quietly (action : EStateM φ σ α) (recorded : Recorded σ κ) :
    (final (quietly action recorded)).calls = recorded.calls := by
  unfold quietly within
  cases action (part.get recorded) with
  | ok result inner => rfl
  | error fault inner => rfl

theorem calls_noting (call : κ) (action : EStateM φ σ α) (recorded : Recorded σ κ) :
    (final (noting call action recorded)).calls = recorded.calls.push call :=
  calls_quietly action (recorded.note call)

/-- How often an engine was asked to unbind. -/
def disconnects (recorded : Recorded σ EngineCall) : Nat :=
  recorded.calls.countP EngineCall.isDisconnect

theorem disconnects_quietly (action : EStateM φ σ α) :
    Moves (Keep disconnects) (quietly (κ := EngineCall) action) := by
  intro recorded
  rw [Keep, disconnects, calls_quietly, disconnects]

theorem disconnects_noting {call : EngineCall} (plain : call.isDisconnect = false)
    (action : EStateM φ σ α) : Moves (Keep disconnects) (noting call action) := by
  intro recorded
  simp [Keep, disconnects, calls_noting, plain]

theorem disconnects_request [Engine σ] {request : Action (Recorded σ EngineCall) α}
    (routine : Engine.IsRoutine request) : Moves (Keep disconnects) request := by
  cases routine with
  | slaveInfo slave => exact disconnects_quietly _
  | slaveState slave => exact disconnects_quietly _
  | expectedWkc => exact disconnects_quietly _
  | outputRange slave => exact disconnects_quietly _
  | inputRange slave => exact disconnects_quietly _
  | _ => exact disconnects_noting rfl _

theorem disconnects_note {call : EngineCall} (plain : call.isDisconnect = false)
    (recorded : Recorded σ EngineCall) : (recorded.note call).disconnects = recorded.disconnects := by
  simp [disconnects, note, plain]

theorem disconnects_event [Engine σ] {change : Recorded σ EngineCall → Recorded σ EngineCall}
    (event : Engine.IsEvent change) (recorded : Recorded σ EngineCall) :
    (change recorded).disconnects = recorded.disconnects := by
  cases event with
  | taskStarted => exact disconnects_note rfl recorded
  | taskJoined => exact disconnects_note rfl recorded
  | wait seconds => rfl

end Recorded

namespace Master

open Fieldbus.Action

variable {ε : Type} [Engine ε]

theorem openBus_of_bound {master bound : Master ε}
    (binds : ask (Engine.connect master.config.adapter) master = .ok () bound)
    (operational : Bool) :
    openBus operational master =
      Action.catching Fault.isLibrary (opening operational) (fun fault => do
        close
        throw fault) { bound with opened := true } := by
  rw [openBus, bind_of_ok (get_apply master), bind_of_ok binds, bind_of_ok (modify_apply _ _)]
  rfl

theorem opened_configure : Moves (Keep Master.opened) (configure (ε := ε)) := by
  refine moves_configure (moves_layOut ?_ (moves_ask _)) (moves_discoverAll ?_)
  · intro _
    rfl
  · intro _ _ _ _
    rfl

theorem opened_of_opening_error {bound between : Master ε} {fault : Fault} {operational : Bool}
    (opened : bound.opened = true) (fails : opening operational bound = .error fault between) :
    between.opened = true := by
  have openedKept : Keep Master.opened bound between :=
    (moves_opening opened_configure _).of_error fails
  exact openedKept.trans opened

section Disconnects

/-- How often the engine was asked to unbind. -/
def disconnects (master : Master (Recorded ε EngineCall)) : Nat :=
  master.engine.disconnects

theorem disconnects_inSession {α : Type} {action : Action (Session (Recorded ε EngineCall)) α}
    (talks : Session.Talks Engine.IsRoutine Session.anyFault action) :
    Moves (Keep disconnects) (inSession action) := by
  have along : Moves (Along Master.engine (Keep Recorded.disconnects)) (inSession action) :=
    along_inSession Recorded.disconnects_request talks
  exact along

instance : AllowsTask (Keep (disconnects (ε := ε))) where
  notices _ _ := rfl
  talks := disconnects_inSession
  tells event master := Recorded.disconnects_event event master.engine
  zeroOutputs slave :=
    moves_zeroOutputs_of (disconnects_inSession (.ask (.outputRange slave))) fun _ _ => rfl
  setValue slave _ _ :=
    moves_setValue_of (disconnects_inSession (.ask (.outputRange slave))) fun _ _ => rfl
  lastWkc _ _ := rfl
  okCount _ _ := rfl
  errorCount _ _ := rfl
  handles _ _ := rfl
  running _ _ := rfl

instance : AllowsNotices (Keep fun master : Master (Recorded ε EngineCall) =>
    master.engine.calls) where
  notices _ _ := rfl

theorem calls_disconnect (master : Master (Recorded ε EngineCall)) :
    (final (disconnect master)).engine.calls = master.engine.calls.push .disconnect := by
  have kept : Keep (fun master : Master (Recorded ε EngineCall) => master.engine.calls)
      (final (ask Engine.disconnect master)) (final (disconnect master)) := by
    apply final_disconnect
    intro _
    rfl
  calc (final (disconnect master)).engine.calls
      = (final (ask Engine.disconnect master)).engine.calls := kept
    _ = (final (Engine.disconnect master.engine)).calls := by rw [engine_ask]
    _ = master.engine.calls.push .disconnect :=
        Recorded.calls_noting .disconnect Engine.disconnect master.engine

theorem disconnects_disconnect (master : Master (Recorded ε EngineCall)) :
    disconnects (final (disconnect master)) = disconnects master + 1 := by
  rw [disconnects, Recorded.disconnects, calls_disconnect, Array.countP_push_of_pos rfl]
  rfl

theorem disconnects_leave (wasRunning : Bool) (master : Master (Recorded ε EngineCall)) :
    disconnects (final (leave wasRunning master)) =
      disconnects master + if master.opened then 1 else 0 := by
  cases opened : master.opened with
  | false =>
      rw [leave_of_closed opened]
      rfl
  | true =>
      let farewelled := final (farewell wasRunning master master)
      have farewellKept : Keep disconnects master farewelled :=
        moves_farewell moves_exchange _ master master
      have endKept : Keep disconnects (final (disconnect farewelled))
          (final (leave wasRunning master)) := leave_of_opened opened _
      calc disconnects (final (leave wasRunning master))
          = disconnects (final (disconnect farewelled)) := endKept
        _ = disconnects farewelled + 1 := disconnects_disconnect farewelled
        _ = disconnects master + 1 := congrArg (· + 1) farewellKept

/-- Closing asks the engine to unbind once if it is bound, and not at all otherwise. -/
theorem disconnects_close [Engine.KnowsRanges ε] (master : Master (Recorded ε EngineCall)) :
    disconnects (final (close master)) = disconnects master + if master.opened then 1 else 0 := by
  obtain ⟨quieted, quieting, isQuiet⟩ := exists_quiet master
  have quiets : Moves (Keep (disconnects (ε := ε))) quiet := by
    refine moves_quiet moves_zeroOutputs ?_ moves_stop
    intro _
    rfl
  have quietKept := quiets.of_ok quieting
  rw [close_of_quieted quieting, disconnects_leave, isQuiet.opened]
  exact congrArg (· + _) quietKept

end Disconnects

/-- Nothing is left of a bus that could not be opened: since the stage failed in the master
`between`, the engine was asked to unbind once and will not be asked again, the master is not
connected, and no task runs. -/
def Undone (between after : Master (Recorded ε EngineCall)) : Prop :=
  disconnects after = disconnects between + 1 ∧
    disconnects (final (close after)) = disconnects after ∧
    after.isConnected = false ∧ after.running = false

variable {master bound between : Master (Recorded ε EngineCall)} {fault : Fault}

theorem undone_close [Engine.KnowsRanges ε] [Engine.Releases ε] (opened : between.opened = true) :
    Undone between (final (close between)) := by
  obtain ⟨closed, ended⟩ := shut_close between
  refine ⟨?_, ?_, ?_, ended⟩
  · simp [disconnects_close, opened]
  · simp [disconnects_close, closed]
  · simp [isConnected, closed]

/-- Opening that fails after the engine is bound leaves nothing behind exactly if the fault is
one of the library.  After any other fault the engine stays bound.  The fault of closing takes the
place of the first one, if closing fails as well. -/
theorem openBus_undone_iff [Engine.KnowsRanges ε] [Engine.Releases ε]
    (binds : ask (Engine.connect master.config.adapter) master = .ok () bound)
    (operational : Bool)
    (fails : opening operational { bound with opened := true } = .error fault between) :
    ∃ cause after, openBus operational master = .error cause after ∧
      (Undone between after ↔ fault.isLibrary = true) ∧ after.opened = !fault.isLibrary := by
  have stillOpened := opened_of_opening_error rfl fails
  rw [openBus_of_bound binds]
  cases isLibrary : fault.isLibrary with
  | true =>
      rw [catching_of_caught fails isLibrary]
      have undone := undone_close stillOpened
      have shut := (shut_close between).1
      cases closing : close between with
      | ok _ after =>
          rw [closing] at undone shut
          refine ⟨fault, after, ?_, iff_of_true undone rfl, shut⟩
          rw [bind_of_ok closing]
          rfl
      | error cause after =>
          rw [closing] at undone shut
          exact ⟨cause, after, bind_of_error closing, iff_of_true undone rfl, shut⟩
  | false =>
      refine ⟨fault, between, catching_of_uncaught fails isLibrary, ?_, stillOpened⟩
      simp [Undone]

/-- A master of one slave whose file assigns an index that has no place in two bytes. -/
def wideMaster : Master (Recorded MemoryEngine EngineCall) :=
  idle BusConfig.defaults (some ⟨some ⟨[0x10000], []⟩, []⟩)
    ⟨MemoryEngine.ofSegment { Segment.bare with slaves := [SimulatedSlave.plain] }, #[]⟩

def wideBound : Master (Recorded MemoryEngine EngineCall) :=
  final (ask (Engine.connect wideMaster.config.adapter) wideMaster)

/-- Opening that bus fails by accident and leaves the engine bound. -/
theorem openBus_undone_iff_wideMaster :
    ∃ fault between cause after,
      ask (Engine.connect wideMaster.config.adapter) wideMaster = .ok () wideBound ∧
        opening false { wideBound with opened := true } = .error fault between ∧
        openBus false wideMaster = .error cause after ∧ ¬ Undone between after ∧
        after.opened = true := by
  have binds : ask (Engine.connect wideMaster.config.adapter) wideMaster = .ok () wideBound := rfl
  have accidental : (match opening false { wideBound with opened := true } with
      | .error fault _ => fault.isLibrary
      | .ok _ _ => true) = false := by
    decide +kernel
  cases fails : opening false { wideBound with opened := true } with
  | ok _ opened =>
      rw [fails] at accidental
      cases accidental
  | error fault between =>
      rw [fails] at accidental
      have plain : fault.isLibrary = false := accidental
      obtain ⟨cause, after, outcome, undone, stays⟩ := openBus_undone_iff binds false fails
      refine ⟨fault, between, cause, after, binds, rfl, outcome, ?_, ?_⟩
      · simp [undone, plain]
      · simp [stays, plain]

end Master

end Fieldbus
