import Fieldbus.Proofs.Engine.Promises
import Fieldbus.Proofs.Master.Operation
import Mathlib.Data.List.Basic

/-!
# Closing

A master closes in two stages.  It falls quiet when it stops its handles, one after the
other, and the process-data task; no fault of the library gets in the way.  Then it leaves: an
engine that is bound is unbound, even if a last exchange fails.
-/

namespace Fieldbus

namespace Master

open Fieldbus.Action

variable {ε : Type}

/-- The slaves of the handles, and which handles take part in cycles. -/
def roster (master : Master ε) : List (Int × Bool) :=
  master.handles.map fun handle => (handle.slave, handle.registered)

theorem registeredPlaces_eq (master : Master ε) :
    registeredPlaces master = (List.range master.roster.length).filter fun place =>
      (master.roster[place]?.map Prod.snd).getD false := by
  simp [registeredPlaces, roster, Function.comp_def]

theorem lt_of_mem_registeredPlaces {place : Nat} {master : Master ε}
    (registered : place ∈ registeredPlaces master) : place < master.roster.length := by
  rw [registeredPlaces_eq, List.mem_filter, List.mem_range] at registered
  exact registered.1

theorem exists_handle_of_lt {place : Nat} {master : Master ε}
    (inside : place < master.roster.length) : ∃ found, master.handles[place]? = some found := by
  have short : place < master.handles.length := by simpa [roster] using inside
  exact ⟨master.handles[place], List.getElem?_eq_getElem short⟩

def slavesAt (roster : List (Int × Bool)) (places : List Nat) : List Int :=
  places.filterMap fun place => roster[place]?.map Prod.fst

def registeredSlaves (master : Master ε) : List Int :=
  slavesAt master.roster (registeredPlaces master)

theorem handle_of_found {place : Nat} {master : Master ε} {found : Handle}
    (holds : master.handles[place]? = some found) :
    handle place master = .ok found master := by
  rw [handle, bind_of_ok (get_apply master), holds]
  rfl

theorem roster_modify_handles {change : Handle → Handle}
    (keeps : ∀ handle, (change handle).slave = handle.slave ∧
      (change handle).registered = handle.registered) (handles : List Handle) (place : Nat) :
    (handles.modify place change).map (fun handle => (handle.slave, handle.registered)) =
      handles.map fun handle => (handle.slave, handle.registered) := by
  apply List.ext_getElem?
  intro index
  rw [List.getElem?_map, List.getElem?_map, List.getElem?_modify]
  cases handles[index]? with
  | none => rfl
  | some found =>
      by_cases same : place = index
      · simp [same, keeps found]
      · simp [same]

theorem engine_ask {α : Type} (action : Action ε α) (master : Master ε) :
    (final (ask action master)).engine = final (action master.engine) := by
  cases asked : action master.engine with
  | ok result engine => simp [ask_of_ok asked, final, Master.engine]
  | error fault engine => simp [ask_of_error asked, final, Master.engine]

variable [Engine ε]

/-- An engine after the outputs in a range were cleared. -/
def cleared (range : ImageRange) (engine : ε) : ε :=
  Engine.setImage engine (range.write (Engine.image engine) (Bytes.zeros range.length))

theorem zeroOutputs_of_known {slave : Int} {range : ImageRange} {master : Master ε}
    (asked : Engine.outputRange slave master.engine = .ok range master.engine) :
    zeroOutputs slave master =
      .ok () { master with session := ⟨cleared range master.engine, master.session.notices⟩ } := by
  rw [zeroOutputs, bind_of_ok (ask_unchanged_of_ok asked)]
  rfl

theorem zeroOutputs_of_missing {slave : Int} {master : Master ε}
    (missing : Engine.outputRange slave master.engine =
      .error (.slaveNotFound slave) master.engine) :
    zeroOutputs slave master = .error (.slaveNotFound slave) master := by
  rw [zeroOutputs, bind_of_error (ask_unchanged_of_error missing)]

/-- Stop the handle at a place; a fault of the library is reported. -/
def stopSafely (place : Nat) : Action (Master ε) Unit :=
  Action.catching Fault.isLibrary (stopHandle place) fun fault => do
    report .warning
      (s!"Slave {(← handle place).slave}: safe stop failed: " ++ fault.message)

theorem stopHandles_cons (place : Nat) (rest : List Nat) :
    stopHandles (ε := ε) (place :: rest) = (do
      stopSafely place
      stopHandles rest) :=
  rfl

/-- What stopping a handle makes of the engine: the outputs of its slave are cleared, if the
engine knows them. -/
def Cleared (slave : Int) (before after : ε) : Prop :=
  (∃ range, Engine.outputRange slave before = .ok range before ∧ after = cleared range before) ∨
    Engine.outputRange slave before = .error (.slaveNotFound slave) before ∧ after = before

/-- What stopping handles of some slaves makes of the engine. -/
def ClearedAll : List Int → ε → ε → Prop
  | [], before, after => after = before
  | slave :: rest, before, after =>
      ∃ between, Cleared slave before between ∧ ClearedAll rest between after

theorem exists_stopSafely [Engine.KnowsRanges ε] {place : Nat} {master : Master ε}
    {found : Handle} (holds : master.handles[place]? = some found) :
    ∃ after, stopSafely place master = .ok () after ∧ after.roster = master.roster ∧
      Cleared found.slave master.engine after.engine := by
  let emptied : Master ε := { master with
    handles := master.handles.modify place fun handle => { handle with pending := [] } }
  have sameRoster : emptied.roster = master.roster := by
    apply roster_modify_handles
    intro _
    exact ⟨rfl, rfl⟩
  have stopping : stopHandle place master = zeroOutputs found.slave emptied := by
    rw [stopHandle, bind_of_ok (handle_of_found holds)]
    rfl
  rcases Engine.KnowsRanges.outputRange found.slave master.engine with ⟨range, asked⟩ | missing
  · have stopped := stopping.trans (zeroOutputs_of_known asked)
    exact ⟨_, catching_of_ok stopped, sameRoster, Or.inl ⟨range, asked, rfl⟩⟩
  · have failed := stopping.trans (zeroOutputs_of_missing missing)
    have stillHolds : emptied.handles[place]? = some { found with pending := [] } := by
      simp [emptied, holds]
    have reported : ∃ notices, stopSafely place master =
        .ok () { emptied with session := ⟨master.engine, notices⟩ } := by
      rw [stopSafely, catching_of_caught failed rfl, bind_of_ok (handle_of_found stillHolds)]
      exact ⟨_, rfl⟩
    obtain ⟨notices, outcome⟩ := reported
    exact ⟨_, outcome, sameRoster, Or.inr ⟨missing, rfl⟩⟩

/-- Stopping handles always succeeds; the outputs of their slaves are cleared.  The roster carries
the induction: it is not changed by what is stopped. -/
theorem exists_stopHandles [Engine.KnowsRanges ε] {places : List Nat} {master : Master ε}
    (inside : ∀ place ∈ places, place < master.roster.length) :
    ∃ after, stopHandles places master = .ok () after ∧ after.roster = master.roster ∧
      ClearedAll (slavesAt master.roster places) master.engine after.engine := by
  induction places generalizing master with
  | nil => exact ⟨master, rfl, rfl, rfl⟩
  | cons place rest ih =>
      obtain ⟨found, holds⟩ := exists_handle_of_lt (inside place (by simp))
      obtain ⟨between, stopped, sameRoster, clears⟩ := exists_stopSafely holds
      have insideRest : ∀ later ∈ rest, later < between.roster.length := by
        intro later member
        rw [sameRoster]
        exact inside later (by simp [member])
      obtain ⟨after, outcome, rosterAfter, clearsRest⟩ := ih insideRest
      have slaves : slavesAt master.roster (place :: rest) =
          found.slave :: slavesAt between.roster rest := by
        rw [sameRoster]
        simp [slavesAt, roster, holds]
      refine ⟨after, ?_, rosterAfter.trans sameRoster, ?_⟩
      · rw [stopHandles_cons, bind_of_ok stopped, outcome]
      · rw [slaves]
        exact ⟨between.engine, clears, clearsRest⟩

section Stages

/-- The first stage of closing: the handles and the process-data task are stopped. -/
def quiet : Action (Master ε) Unit := do
  stopHandles (registeredPlaces (← get))
  modify fun master => { master with inOp := false }
  stop

theorem moves_quiet {relation : Master ε → Master ε → Prop} [AllowsNotices relation]
    [AllowsTurns relation] (clears : ∀ slave, Moves relation (zeroOutputs (ε := ε) slave))
    (marks : ∀ master, relation master { master with inOp := false })
    (stops : Moves relation (stop (ε := ε))) : Moves relation (quiet (ε := ε)) := by
  refine Moves.bind Moves.get ?_
  intro master
  refine Moves.bind (moves_stopHandles clears _) ?_
  intro _
  refine Moves.bind (Moves.modify marks) ?_
  intro _
  exact stops

def leave (wasRunning : Bool) : Action (Master ε) Unit := do
  let master ← get
  if master.opened then
    Action.ensuring (farewell wasRunning master) disconnect
    report .info "Disconnected"

/-- What falling quiet makes of a master. -/
structure Quieted (master quieted : Master ε) : Prop where
  running : quieted.running = false
  inOp : quieted.inOp = false
  opened : quieted.opened = master.opened
  roster : quieted.roster = master.roster
  engine : ∃ between,
    ClearedAll (registeredSlaves master) master.engine between ∧
      quieted.engine = if master.running then Engine.taskJoined between else between

/-- A master once its handles are stopped. -/
def stilled (master : Master ε) : Master ε :=
  { final (stopHandles (registeredPlaces master) master) with inOp := false }

theorem moves_stilled {relation : Master ε → Master ε → Prop} [AllowsNotices relation]
    [AllowsTurns relation] (clears : ∀ slave, Moves relation (zeroOutputs (ε := ε) slave))
    (marks : ∀ master, relation master { master with inOp := false }) (master : Master ε) :
    relation master (stilled master) :=
  IsTrans.trans _ _ _ (moves_stopHandles clears _ master) (marks _)

/-- What stopping its handles makes of a master. -/
structure Stilled (master stilled : Master ε) : Prop where
  running : stilled.running = master.running
  inOp : stilled.inOp = false
  opened : stilled.opened = master.opened
  roster : stilled.roster = master.roster
  engine : ClearedAll (registeredSlaves master) master.engine stilled.engine

section Stopping

variable [Engine.KnowsRanges ε]

theorem exists_stopRegistered (master : Master ε) :
    ∃ stopped, stopHandles (registeredPlaces master) master = .ok () stopped ∧
      stilled master = { stopped with inOp := false } ∧ Stilled master (stilled master) := by
  have inside : ∀ place ∈ registeredPlaces master, place < master.roster.length := by
    intro place registered
    exact lt_of_mem_registeredPlaces registered
  obtain ⟨stopped, stopping, rosterKept, clears⟩ := exists_stopHandles inside
  have runningKept : Keep Master.running master stopped :=
    (moves_stopHandles moves_zeroOutputs _).of_ok stopping
  have openedKept : Keep Master.opened master stopped :=
    (moves_stopHandles moves_zeroOutputs _).of_ok stopping
  have stilledEq : stilled master = { stopped with inOp := false } := by
    rw [stilled, stopping, final]
  refine ⟨stopped, stopping, stilledEq, ?_⟩
  rw [stilledEq]
  exact ⟨runningKept, rfl, openedKept, rosterKept, clears⟩

theorem stilled_stilled (master : Master ε) : Stilled master (stilled master) := by
  obtain ⟨_, _, _, isStilled⟩ := exists_stopRegistered master
  exact isStilled

theorem quiet_eq (master : Master ε) : quiet master = stop (stilled master) := by
  obtain ⟨stopped, stopping, stilledEq, _⟩ := exists_stopRegistered master
  rw [quiet, bind_of_ok (get_apply master), bind_of_ok stopping, bind_of_ok (modify_apply _ _),
    stilledEq]

theorem exists_quiet (master : Master ε) :
    ∃ quieted, quiet master = .ok () quieted ∧ Quieted master quieted := by
  have isStilled := stilled_stilled master
  obtain ⟨quieted, ending, ended, inOpEq, openedEq, handlesEq, engineEq⟩ :=
    exists_stop (stilled master)
  have rosterEq : quieted.roster = (stilled master).roster := by
    rw [roster, handlesEq, roster]
  rw [isStilled.running] at engineEq
  refine ⟨quieted, (quiet_eq master).trans ending, ?_⟩
  exact ⟨ended, inOpEq.trans isStilled.inOp, openedEq.trans isStilled.opened,
    rosterEq.trans isStilled.roster, (stilled master).engine, isStilled.engine, engineEq⟩

theorem close_of_quieted {master quieted : Master ε} (quieting : quiet master = .ok () quieted) :
    close master = leave master.running quieted := by
  obtain ⟨stopped, stopping, stilledEq, isStilled⟩ := exists_stopRegistered master
  have runningEq : stopped.running = master.running := by
    rw [← isStilled.running, stilledEq]
  rw [quiet_eq, stilledEq] at quieting
  rw [close, bind_of_ok (get_apply master), bind_of_ok stopping, bind_of_ok (get_apply stopped),
    bind_of_ok (modify_apply _ _), bind_of_ok quieting, runningEq]
  rfl

end Stopping

theorem leave_of_closed {master : Master ε} (closed : master.opened = false)
    (wasRunning : Bool) : leave wasRunning master = .ok () master := by
  rw [leave, bind_of_ok (get_apply master), closed]
  rfl

/-- What comes after an engine that was bound is unbound are notices only. -/
theorem leave_of_opened {relation : Master ε → Master ε → Prop} [AllowsNotices relation]
    {master : Master ε} (opened : master.opened = true) (wasRunning : Bool) :
    relation (final (disconnect (final (farewell wasRunning master master))))
      (final (leave wasRunning master)) := by
  rw [leave, bind_of_ok (get_apply master), if_pos opened, ← final_ensuring]
  exact Moves.final_bind (fun _ => moves_report _ _) _ _

/-- Once the engine was asked to unbind, the master only notes it. -/
theorem final_disconnect {relation : Master ε → Master ε → Prop} [IsPreorder (Master ε) relation]
    (notes : ∀ master, relation master { master with opened := false }) (master : Master ε) :
    relation (final (ask Engine.disconnect master)) (final (disconnect master)) :=
  Moves.final_bind (fun _ => Moves.modify notes) (ask Engine.disconnect) master

theorem disconnect_of_ok {master : Master ε} {engine : ε}
    (released : Engine.disconnect master.engine = .ok () engine) :
    disconnect master = .ok () { master with
      session := { master.session with engine }, opened := false } := by
  rw [disconnect, bind_of_ok (ask_of_ok released)]
  rfl

/-- Leaving unbinds the engine, whether it fails or not, and starts no task. -/
theorem shut_leave [Engine.Releases ε] (wasRunning : Bool) (master : Master ε) :
    (final (leave wasRunning master)).opened = false ∧
      (final (leave wasRunning master)).running = master.running := by
  cases opened : master.opened with
  | false =>
      rw [leave_of_closed opened]
      exact ⟨opened, rfl⟩
  | true =>
      let farewelled := final (farewell wasRunning master master)
      have runningKept : Keep Master.running master farewelled :=
        moves_farewell moves_exchange _ master master
      obtain ⟨engine, released⟩ := Engine.Releases.disconnect farewelled.engine
      have openedEnd : Keep Master.opened (final (disconnect farewelled))
          (final (leave wasRunning master)) := leave_of_opened opened _
      have runningEnd : Keep Master.running (final (disconnect farewelled))
          (final (leave wasRunning master)) := leave_of_opened opened _
      rw [disconnect_of_ok released] at openedEnd runningEnd
      exact ⟨openedEnd, runningEnd.trans runningKept⟩

/-- A master that was closed is not bound to an engine and runs no task, whatever it did
before and whether closing failed or not. -/
theorem shut_close [Engine.KnowsRanges ε] [Engine.Releases ε] (master : Master ε) :
    (final (close master)).opened = false ∧ (final (close master)).running = false := by
  obtain ⟨quieted, quieting, isQuiet⟩ := exists_quiet master
  rw [close_of_quieted quieting]
  obtain ⟨closed, runningKept⟩ := shut_leave master.running quieted
  exact ⟨closed, runningKept.trans isQuiet.running⟩

end Stages

end Master

end Fieldbus
