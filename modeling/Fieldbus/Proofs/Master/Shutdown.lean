import Fieldbus.Proofs.Master.Opening
import Fieldbus.Proofs.Master.Rounds
import Fieldbus.Proofs.Master.Scene

/-!
# Shutting down

Closing stops the handles one after the other, then the task, and unbinds an engine that is bound
even if the last exchange fails.  Between the handles and the end of the task, cycles may still run,
and their observers may queue writes.  The main statement tells what is left of a scene that was
closed, whether closing succeeded or not, and that closing it once more is nothing to the engine.
-/

namespace Fieldbus

namespace Master

open Fieldbus.Action

variable {ε : Type} {place other : Nat} {places : List Nat}

theorem Emptied.queueOf_of_empty {before after : Master ε} (empties : Emptied place before after)
    (empty : queueOf before other = []) : queueOf after other = [] := by
  by_cases same : other = place
  · rw [same]
    exact empties.queue
  · rw [queueOf_congr (empties.others other same), empty]

variable [Engine ε]

section Queues

variable {before after : Master ε}

/-- Stopping a handle empties its queue, even if the outputs of its slave cannot be cleared. -/
theorem emptied_stopSafely {found : Handle} (holds : before.handles[place]? = some found) :
    Emptied place before (final (stopSafely place before)) := by
  let taken : Master ε := { before with handles := before.handles.modify place emptied }
  have stopping : stopHandle place before = zeroOutputs found.slave taken := by
    rw [stopHandle, bind_of_ok (handle_of_found holds)]
    rfl
  have cleared : Keep (apartFrom place) taken (final (stopHandle place before)) := by
    rw [stopping]
    exact moves_zeroOutputs _ taken
  have reported : Keep (apartFrom place) (final (stopHandle place before))
      (final (stopSafely place before)) := by
    apply Moves.final_catching
    intro fault
    refine Moves.bind (moves_handle place) ?_
    intro found
    exact moves_report _ _
  exact ((emptied_changeHandle place before).keep cleared).keep reported

theorem queueOf_stopHandles [Engine.KnowsRanges ε]
    (inside : ∀ place ∈ places, place < before.roster.length)
    (stopped : stopHandles places before = .ok () after)
    (settled : other ∈ places ∨ queueOf before other = []) : queueOf after other = [] := by
  induction places generalizing before with
  | nil =>
      cases stopped
      exact settled.resolve_left List.not_mem_nil
  | cons place rest ih =>
      obtain ⟨found, holds⟩ := exists_handle_of_lt (inside place List.mem_cons_self)
      obtain ⟨between, first, rosterEq, _⟩ := exists_stopSafely holds
      have empties := emptied_stopSafely holds
      rw [stopHandles_cons, bind_of_ok first] at stopped
      rw [first] at empties
      apply ih _ stopped
      · rcases settled with member | empty
        · rcases List.mem_cons.mp member with rfl | later
          · exact Or.inr empties.queue
          · exact Or.inl later
        · exact Or.inr (empties.queueOf_of_empty empty)
      · intro later member
        rw [rosterEq]
        exact inside later (List.mem_cons_of_mem _ member)

theorem queueOf_stilled [Engine.KnowsRanges ε] {master : Master ε}
    (registered : place ∈ registeredPlaces master) : queueOf (stilled master) place = [] := by
  obtain ⟨stopped, stopping, stilledEq, _⟩ := exists_stopRegistered master
  have same : (stilled master).handles[place]? = stopped.handles[place]? := by rw [stilledEq]
  rw [queueOf_congr same]
  apply queueOf_stopHandles _ stopping (Or.inl registered)
  intro other registered
  exact lt_of_mem_registeredPlaces registered

/-- A master that an observer closes is not connected and its queues are empty.  Closing fails, with
the task running and the engine bound as before. -/
theorem closeFromTask_eq [Engine.KnowsRanges ε] (master : Master ε) :
    closeFromTask master =
        .error (.stack ⟨.runtime, "cannot join current thread", none, none⟩) (stilled master) ∧
      (stilled master).isConnected = false ∧ (stilled master).running = master.running ∧
      (stilled master).opened = master.opened ∧
      ∀ place ∈ registeredPlaces master, queueOf (stilled master) place = [] := by
  obtain ⟨stopped, stopping, stilledEq, isStilled⟩ := exists_stopRegistered master
  refine ⟨?_, ?_, isStilled.running, isStilled.opened, fun _ => queueOf_stilled⟩
  · rw [closeFromTask, bind_of_ok (get_apply master), bind_of_ok stopping,
      bind_of_ok (modify_apply _ _), stilledEq]
    rfl
  · rw [isConnected, isStilled.inOp, Bool.and_false]

theorem handles_leave (wasRunning : Bool) :
    Moves (Keep (Master.handles (ε := ε))) (leave wasRunning) := by
  refine Moves.bind Moves.get ?_
  intro master
  split
  · have unbinds : Moves (Keep (Master.handles (ε := ε))) disconnect := by
      refine Moves.bind (moves_ask _) ?_
      intro _
      exact Moves.modify fun _ => rfl
    refine Moves.bind (Moves.ensuring (moves_farewell handles_exchange _ _) unbinds) ?_
    intro _
    exact moves_report _ _
  · exact Moves.pure _

end Queues

section Faults

variable {before after : Master ε} {fault : Fault}

theorem isLibrary_of_farewell {wasRunning : Bool} {master : Master ε}
    (failed : farewell wasRunning master before = .error fault after) :
    fault.isLibrary = false := by
  rw [farewell] at failed
  split at failed
  · rcases catching_eq_error_iff.mp failed with ⟨_, uncaught⟩ | ⟨_, _, _, _, handled⟩
    · exact uncaught
    · cases handled
  · cases failed

theorem isLibrary_of_leave [Engine.Releases ε] {wasRunning : Bool}
    (failed : leave wasRunning before = .error fault after) : fault.isLibrary = false := by
  rw [leave, bind_of_ok (get_apply before)] at failed
  split at failed
  · have unbinds (master : Master ε) : ∃ unbound, disconnect master = .ok () unbound := by
      obtain ⟨engine, released⟩ := Engine.Releases.disconnect master.engine
      exact ⟨_, disconnect_of_ok released⟩
    rcases bind_eq_error_iff.mp failed with failed | ⟨_, _, _, impossible⟩
    · obtain ⟨between, failed⟩ := exists_error_of_ensuring unbinds failed
      exact isLibrary_of_farewell failed
    · cases impossible
  · cases failed

end Faults

section Calls

variable {slaves : List Int}

theorem calls_of_clearedAll {before after : Recorded ε EngineCall}
    (clears : ClearedAll slaves before after) : after.calls = before.calls := by
  induction slaves generalizing before with
  | nil =>
      cases clears
      rfl
  | cons slave rest ih =>
      obtain ⟨between, cleared, clearsRest⟩ := clears
      rw [ih clearsRest]
      rcases cleared with ⟨range, _, rfl⟩ | ⟨_, rfl⟩
      · rfl
      · rfl

/-- Leaving an engine that is bound ends with the request to unbind. -/
theorem exists_calls_leave {master : Master (Recorded ε EngineCall)} (opened : master.opened = true)
    (wasRunning : Bool) : ∃ earlier : Array EngineCall,
      (final (leave wasRunning master)).engine.calls = earlier.push .disconnect := by
  let farewelled := final (farewell wasRunning master master)
  have last : Keep (fun master : Master (Recorded ε EngineCall) => master.engine.calls)
      (final (disconnect farewelled)) (final (leave wasRunning master)) := leave_of_opened opened _
  exact ⟨farewelled.engine.calls, Eq.trans last (calls_disconnect farewelled)⟩

end Calls

section Spills

variable {company : Company} {before after : Master ε}

/-- The handles stay the same, and only observers of a company queue writes. -/
def Spills (company : Company) (before after : Master ε) : Prop :=
  after.roster = before.roster ∧ ∀ place, ∀ write ∈ queueOf after place,
    write ∈ queueOf before place ∨ company.Queues place write

omit [Engine ε] in
theorem Spills.of_handles (same : after.handles = before.handles) :
    Spills company before after := by
  refine ⟨?_, ?_⟩
  · rw [roster, same, roster]
  · intro place write member
    rw [queueOf, same] at member
    exact Or.inl member

omit [Engine ε] in
/-- A change of a handle spills what it adds to the queue. -/
theorem spills_changeHandle {change : Handle → Handle}
    (keeps : ∀ handle, (change handle).slave = handle.slave ∧
      (change handle).registered = handle.registered)
    (spills : ∀ handle, ∀ write ∈ (change handle).pending,
      write ∈ handle.pending ∨ company.Queues place write) (master : Master ε) :
    Spills company master { master with handles := master.handles.modify place change } := by
  refine ⟨roster_modify_handles keeps _ _, ?_⟩
  intro other write member
  by_cases same : other = place
  · subst same
    rw [queueOf] at member ⊢
    simp only [List.getElem?_modify_eq] at member
    cases holds : master.handles[other]? with
    | none =>
        rw [holds] at member
        cases member
    | some found =>
        rw [holds] at member
        exact spills found write member
  · have unchanged : (master.handles.modify place change)[other]? = master.handles[other]? := by
      rw [List.getElem?_modify]
      simp [Ne.symm same]
    rw [queueOf_congr unchanged] at member
    exact Or.inl member

instance : IsPreorder (Master ε) (Spills company) where
  refl _ := Spills.of_handles rfl
  trans first second third := by
    rintro ⟨rosterFirst, queuesFirst⟩ ⟨rosterSecond, queuesSecond⟩
    refine ⟨rosterSecond.trans rosterFirst, ?_⟩
    intro place write member
    rcases queuesSecond place write member with early | queued
    · exact queuesFirst place write early
    · exact Or.inr queued

instance : AllowsSession (Spills (ε := ε) company) where
  session _ _ := Spills.of_handles rfl

instance : AllowsCounters (Spills (ε := ε) company) where
  lastWkc _ _ := Spills.of_handles rfl
  okCount _ _ := Spills.of_handles rfl
  errorCount _ _ := Spills.of_handles rfl

instance : AllowsTurns (Spills (ε := ε) company) where
  turns master place change turn := by
    apply spills_changeHandle
    · intro handle
      exact ⟨(turn handle).1, (turn handle).2.1⟩
    · intro handle write member
      exact Or.inl ((turn handle).2.2 member)

omit [Engine ε] in
theorem spills_queue {entry : EntryIndex} {value : Value}
    (queues : company.Queues place (entry, value)) :
    Moves (Spills (ε := ε) company) (queue place entry value) := by
  have appends : Moves (Spills (ε := ε) company) (changeHandle place fun handle =>
      { handle with pending := handle.pending ++ [(entry, value)] }) := by
    apply Moves.modify
    apply spills_changeHandle
    · intro handle
      exact ⟨rfl, rfl⟩
    · intro handle write member
      rcases List.mem_append.mp member with early | last
      · exact Or.inl early
      · cases List.mem_singleton.mp last
        exact Or.inr queues
  refine Moves.bind (moves_handle _) ?_
  intro found
  refine Moves.bind Moves.get ?_
  intro master
  split
  · refine Moves.bind (moves_checkValue _ _ _) ?_
    intro _
    exact appends
  · exact appends

/-- What is left in the queues when the task has run its last cycle. -/
theorem spills_atJoin (company : Company) (master : Master ε) :
    Spills company master (company.atJoin master) := by
  apply Company.moves_atJoin_of
  · intro place entry value queues
    exact spills_queue queues
  · intro _
    exact Spills.of_handles rfl

end Spills

end Master

namespace Scene

open Fieldbus.Action Master

variable {ε : Type} [Engine ε] [Engine.KnowsRanges ε]

/-- Closing stops the handles, ends the task and leaves the engine. -/
theorem close_eq (company : Company) (scene : Scene ε) :
    close company scene = inMaster (leave scene.master.running)
      (ended company { scene with master := scene.master.stilled }) := by
  obtain ⟨stopped, stopping, stilledEq, isStilled⟩ := exists_stopRegistered scene.master
  have first : inMaster (do stopHandles (registeredPlaces (← get))) scene =
      .ok () { scene with master := stopped } :=
    inMaster_of_ok ((bind_of_ok (get_apply scene.master)).trans stopping)
  have runningEq : stopped.running = scene.master.running := by
    rw [← isStilled.running, stilledEq]
  rw [close, bind_of_ok first, bind_of_ok (get_apply _)]
  dsimp only
  rw [bind_of_ok (inMaster_of_ok (modify_apply _ _)), bind_of_ok (stop_eq _ _), stilledEq,
    ← runningEq]
  rfl

theorem close_absent : close .absent = inMaster (Master.close (ε := ε)) := by
  funext scene
  obtain ⟨quieted, quieting, _⟩ := exists_quiet scene.master
  have ending := (quiet_eq scene.master).symm.trans quieting
  rw [close_eq, ended_absent, ending, final]
  exact inMaster_congr_start (close_of_quieted quieting).symm

/-- What is left of a scene that was closed in company. -/
structure ShutDown (company : Company) (before after : Scene (Recorded ε EngineCall)) : Prop where
  disconnected : after.master.isConnected = false
  /-- No task is alive but one that outlived a wait for its end. -/
  ended : after.isAlive = (before.outlived || company.outstays before.master.stilled)
  roster : after.master.roster = before.master.roster
  /-- The queues are empty but for what observers queued in cycles after the handles were
  stopped. -/
  emptied : ∀ place ∈ registeredPlaces before.master, ∀ write ∈ queueOf after.master place,
    before.master.running = true ∧ company.Queues place write
  /-- An engine that was bound is unbound last of all. -/
  released : before.master.opened = true →
    ∃ earlier : Array EngineCall, after.master.engine.calls = earlier.push .disconnect
  once : disconnects after.master =
    disconnects before.master + if before.master.opened then 1 else 0
  /-- Closing once more exchanges nothing and unbinds nothing. -/
  again : ∀ others, ∃ last, close others after = .ok () last ∧
    last.master.engine.calls = after.master.engine.calls

/-- Closing a scene that is not bound and runs no task calls for nothing. -/
theorem exists_close_of_shut {scene : Scene (Recorded ε EngineCall)}
    (closed : scene.master.opened = false) (idle : scene.master.running = false)
    (company : Company) :
    ∃ last, close company scene = .ok () last ∧
      last.master.engine.calls = scene.master.engine.calls := by
  have isStilled := stilled_stilled scene.master
  refine ⟨{ scene with master := scene.master.stilled }, ?_, calls_of_clearedAll isStilled.engine⟩
  rw [close_eq, ended_of_idle company (isStilled.running.trans idle)]
  exact inMaster_of_ok (leave_of_closed (isStilled.opened.trans closed) _)

/-- What is left in the queues when the handles were stopped and the task has ended. -/
theorem queues_of_mem_ended {company : Company} {scene : Scene ε} {place : Nat}
    {write : EntryIndex × Value} (registered : place ∈ registeredPlaces scene.master)
    (member : write ∈ queueOf
      (ended company { scene with master := scene.master.stilled }).master place) :
    scene.master.running = true ∧ company.Queues place write := by
  have isStilled := stilled_stilled scene.master
  have empty := queueOf_stilled registered
  cases runs : scene.master.running with
  | false =>
      rw [ended_of_idle company (isStilled.running.trans runs), empty] at member
      cases member
  | true =>
      obtain ⟨stopped, stopping, _, _, _, handlesEq, _⟩ :=
        exists_stop (company.atJoin scene.master.stilled)
      have same : stopped.handles[place]? =
          (company.atJoin scene.master.stilled).handles[place]? := by
        rw [handlesEq]
      rw [ended, stopping, final, queueOf_congr same] at member
      rcases (spills_atJoin company scene.master.stilled).2 place write member with early | queued
      · rw [empty] at early
        cases early
      · exact ⟨rfl, queued⟩

omit [Engine.KnowsRanges ε] in
theorem roster_ended (company : Company) (scene : Scene ε) :
    (ended company scene).master.roster = scene.master.roster := by
  obtain ⟨stopped, stopping, _, _, _, handlesEq, _⟩ := exists_stop (company.atJoin scene.master)
  rw [ended, stopping, final, roster, handlesEq]
  exact (spills_atJoin company scene.master).1

/-- A master in the operational state on a bus whose frames come back by a script, with a handle of
a slave that is there, for which a write is queued, and one of a slave that is not. -/
def frayed (frames : Script (Option Int)) : Scene (Recorded MemoryEngine EngineCall) where
  master := Command.performAll
    [.register 0 false, .register 7 false, .openBus true, .queue 0 ⟨0x7000, 1⟩ ⟨.u8, .int 5⟩]
    (idle BusConfig.defaults none
      ⟨MemoryEngine.ofSegment
        { Segment.bare with slaves := [dimmerSlave], wkc := some frames }, #[]⟩)
  outlived := false

/-- In the last cycle of the task, the observer of the first handle queues a write and takes three
seconds. -/
def lingering : Company where
  acts _ place :=
    if place = 0 then [.queue 0 ⟨0x7000, 1⟩ ⟨.u8, .int 9⟩, .block ⟨0x4008000000000000⟩] else []
  early := 0
  late := true

end Scene

end Fieldbus
