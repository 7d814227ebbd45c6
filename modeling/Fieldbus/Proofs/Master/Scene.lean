import Fieldbus.Master.Scene
import Fieldbus.Proofs.Master.Operation
import Fieldbus.Proofs.Outcome

/-!
# Operations beside the task

Ending the task always succeeds.  It leaves the master that its last cycle left, without a task, and
the scene is marked if this cycle took longer than its end was waited for.  What the cycles move
along is told once for all acts of observers.  The operations of a scene are those of its master
from there on, and without company they are those of its master altogether.
-/

namespace Fieldbus

open Fieldbus.Action

variable {ε α : Type}

namespace Scene

variable {scene : Scene ε} {master : Master ε} {action : Action (Master ε) α} {value : α}
  {fault : Fault}

theorem inMaster_of_ok (succeeded : action scene.master = .ok value master) :
    inMaster action scene = .ok value { scene with master } :=
  within_eq_ok_iff.mpr ⟨master, succeeded, rfl⟩

theorem inMaster_of_error (failed : action scene.master = .error fault master) :
    inMaster action scene = .error fault { scene with master } :=
  within_eq_error_iff.mpr ⟨master, failed, rfl⟩

/-- Masters that do the same do the same in scenes that differ in the master. -/
theorem inMaster_congr_start {first second : Action (Master ε) α}
    (same : first master = second scene.master) :
    inMaster first { scene with master } = inMaster second scene := by
  cases outcome : second scene.master with
  | ok value after =>
      exact (inMaster_of_ok (same.trans outcome)).trans (inMaster_of_ok outcome).symm
  | error fault after =>
      exact (inMaster_of_error (same.trans outcome)).trans (inMaster_of_error outcome).symm

theorem final_inMaster (action : Action (Master ε) α) (scene : Scene ε) :
    final (inMaster action scene) = { scene with master := final (action scene.master) } := by
  cases outcome : action scene.master with
  | ok value after => rw [inMaster_of_ok outcome, final, final]
  | error fault after => rw [inMaster_of_error outcome, final, final]

theorem inMaster_bind {β : Type} (action : Action (Master ε) α)
    (next : α → Action (Master ε) β) :
    inMaster (action >>= next) = inMaster action >>= fun value => inMaster (next value) := by
  funext scene
  cases outcome : action scene.master with
  | ok value between =>
      rw [bind_of_ok (inMaster_of_ok outcome), inMaster, within, inMaster, within]
      simp only [masterPart, bind_of_ok outcome]
  | error fault between =>
      rw [bind_of_error (inMaster_of_error outcome)]
      exact inMaster_of_error (bind_of_error outcome)

end Scene

/-- Some observer of a company queues a write for the handle at a place. -/
def Company.Queues (company : Company) (place : Nat) (write : EntryIndex × Value) : Prop :=
  ∃ turn other, .queue place write.1 write.2 ∈ company.acts turn other

namespace Master

variable [Engine ε] {relation : Master ε → Master ε → Prop} {company : Company}

section Cycles

variable [AllowsEngine relation] [AllowsCounters relation] [AllowsTurns relation]
  (queues : ∀ place entry value, company.Queues place (entry, value) →
    Moves relation (queue (ε := ε) place entry value))
  (marks : ∀ master, relation master { master with inOp := false })
include queues marks

theorem moves_performActs_of {acts : List Act} {turn other : Nat}
    (known : acts ⊆ company.acts turn other) : Moves relation (performActs (ε := ε) acts) := by
  induction acts with
  | nil => exact Moves.pure _
  | cons act rest ih =>
      obtain ⟨member, later⟩ := List.cons_subset.mp known
      refine Moves.bind ?_ fun _ => ih later
      cases act with
      | queue place entry value => exact queues place entry value ⟨turn, other, member⟩
      | block seconds => exact AllowsEngine.tells (.wait seconds)
      | fail fault => exact Moves.throw fault
      | close =>
          refine Moves.bind Moves.get ?_
          intro master
          refine Moves.bind (moves_stopHandles AllowsEngine.zeroOutputs _) ?_
          intro _
          refine Moves.bind (Moves.modify marks) ?_
          intro _
          exact Moves.throw _

/-- A cycle in company moves along what observers may do and what updates of handles do. -/
theorem moves_cycleAmid_of (turn : Nat) :
    Moves relation (cycleAmid (ε := ε) company turn) := by
  refine Moves.catching ?_ ?_
  · refine Moves.bind moves_exchange ?_
    intro _
    refine Moves.bind Moves.get ?_
    intro master
    refine moves_forPlaces ?_ _
    intro place
    refine Moves.bind (moves_updateHandle place) ?_
    intro _
    exact moves_performActs_of queues marks (List.Subset.refl (company.acts turn place))
  · intro fault
    refine Moves.bind (Moves.modify fun master => AllowsCounters.errorCount master _) ?_
    intro _
    exact moves_report _ _

theorem moves_cyclesAmid_of (count turn : Nat) :
    Moves relation (cyclesAmid (ε := ε) company count turn) := by
  induction count generalizing turn with
  | zero => exact Moves.pure _
  | succ count ih =>
      refine Moves.bind (moves_cycleAmid_of queues marks turn) ?_
      intro _
      exact ih (turn + 1)

end Cycles

theorem stop_of_stopped {master stopped : Master ε} (stopping : stop master = .ok () stopped) :
    stop stopped = .ok () stopped := by
  obtain ⟨_, again, ended, _⟩ := exists_stop master
  cases stopping.symm.trans again
  rw [stop, bind_of_ok (get_apply stopped), ended]
  rfl

/-- A pass does the same if the task was ended before. -/
theorem configure_of_stopped {master stopped : Master ε} (stopping : stop master = .ok () stopped) :
    configure stopped = configure master := by
  have prepares : prepare stopped = prepare master := by
    rw [prepare_eq, bind_of_ok (stop_of_stopped stopping), bind_of_ok stopping]
  rw [configure, bind_congr_start prepares]

/-- A cycle in company always succeeds: it counts and reports what fails. -/
theorem exists_cycleAmid (company : Company) (turn : Nat) (master : Master ε) :
    ∃ after, cycleAmid company turn master = .ok () after := by
  cases outcome : cycleAmid company turn master with
  | ok _ after => exact ⟨after, rfl⟩
  | error fault after =>
      rcases catching_eq_error_iff.mp outcome with ⟨_, uncaught⟩ | ⟨_, _, _, _, handled⟩
      · cases uncaught
      · cases handled

theorem exists_cyclesAmid (company : Company) (count turn : Nat) (master : Master ε) :
    ∃ after, cyclesAmid company count turn master = .ok () after := by
  induction count generalizing turn master with
  | zero => exact ⟨master, rfl⟩
  | succ count ih =>
      obtain ⟨between, cycled⟩ := exists_cycleAmid company turn master
      rw [cyclesAmid, bind_of_ok cycled]
      exact ih (turn + 1) between

end Master

namespace Company

open Master

variable [Engine ε]

/-- A master when its task has run the cycles until it is told to end. -/
def atNotice (company : Company) (master : Master ε) : Master ε :=
  final (cyclesAmid company company.early 0 master)

/-- A master when its task has run its last cycle.  If no task runs, nothing has happened. -/
def atJoin (company : Company) (master : Master ε) : Master ε :=
  if master.running then
    if company.late then final (cycleAmid company company.early (company.atNotice master))
    else company.atNotice master
  else master

/-- The task is in its last cycle for longer than its end is waited for. -/
def outstays (company : Company) (master : Master ε) : Bool :=
  master.running && company.late &&
    Scene.joinTimeout.lt ((Engine.now (company.atJoin master).engine).sub
      (Engine.now (company.atNotice master).engine))

theorem atJoin_of_idle (company : Company) {master : Master ε} (idle : master.running = false) :
    company.atJoin master = master := by
  simp [atJoin, idle]

theorem atJoin_absent (master : Master ε) : absent.atJoin master = master := by
  rw [atJoin]
  exact ite_self _

/-- What the task does until it has run its last cycle. -/
theorem moves_atJoin_of {relation : Master ε → Master ε → Prop} [AllowsEngine relation]
    [AllowsCounters relation] [AllowsTurns relation] {company : Company}
    (queues : ∀ place entry value, company.Queues place (entry, value) →
      Moves relation (queue (ε := ε) place entry value))
    (marks : ∀ master, relation master { master with inOp := false }) (master : Master ε) :
    relation master (company.atJoin master) := by
  rw [atJoin]
  split
  · have noticed : relation master (company.atNotice master) :=
      moves_cyclesAmid_of queues marks company.early 0 master
    split
    · exact IsTrans.trans _ _ _ noticed (moves_cycleAmid_of queues marks _ _)
    · exact noticed
  · exact refl master

theorem moves_atJoin (company : Company) {relation : Master ε → Master ε → Prop} [AllowsCycles relation]
    (marks : ∀ master, relation master { master with inOp := false })
    (master : Master ε) : relation master (company.atJoin master) :=
  moves_atJoin_of (fun place entry value _ => moves_queue place entry value) marks master

theorem running_atJoin (company : Company) (master : Master ε) :
    (company.atJoin master).running = master.running := by
  have kept : Keep Master.running master (company.atJoin master) := by
    apply moves_atJoin
    intro _
    rfl
  exact kept

end Company

namespace Scene

open Master

variable [Engine ε]

/-- A scene when the task was ended. -/
def ended (company : Company) (scene : Scene ε) : Scene ε where
  master := final (Master.stop (company.atJoin scene.master))
  outlived := scene.outlived || company.outstays scene.master

/-- The task runs its last cycle and is ended, and it is marked whether this took too long. -/
theorem stop_of_late {company : Company} {scene : Scene ε} {noticed last stopped : Master ε}
    (late : company.late = true) (runs : scene.master.running = true)
    (early : cyclesAmid company company.early 0 scene.master = .ok () noticed)
    (cycled : cycleAmid company company.early noticed = .ok () last)
    (stopping : Master.stop last = .ok () stopped) :
    stop company scene = .ok () ⟨stopped, scene.outlived ||
      joinTimeout.lt ((Engine.now last.engine).sub (Engine.now noticed.engine))⟩ := by
  rw [stop, bind_of_ok (get_apply scene), if_pos runs, bind_of_ok (inMaster_of_ok early),
    if_pos late]
  dsimp only
  rw [bind_of_ok (get_apply _), bind_of_ok (inMaster_of_ok cycled), bind_of_ok (get_apply _),
    bind_of_ok (modify_apply _ _)]
  exact inMaster_of_ok stopping

theorem stop_eq (company : Company) (scene : Scene ε) :
    stop company scene = .ok () (ended company scene) := by
  obtain ⟨stopped, stopping, _⟩ := exists_stop (company.atJoin scene.master)
  rw [ended, stopping, final, Company.outstays]
  cases runs : scene.master.running with
  | false =>
      rw [company.atJoin_of_idle runs, Master.stop, bind_of_ok (get_apply _), runs] at stopping
      cases stopping
      rw [stop, bind_of_ok (get_apply scene), runs]
      simp only [Bool.false_and, Bool.or_false]
      rfl
  | true =>
      obtain ⟨noticed, early⟩ := exists_cyclesAmid company company.early 0 scene.master
      have noticedEq : company.atNotice scene.master = noticed := by
        rw [Company.atNotice, early, final]
      cases late : company.late with
      | false =>
          rw [Company.atJoin, if_pos runs, late, if_neg (by decide), noticedEq] at stopping
          rw [stop, bind_of_ok (get_apply scene), if_pos runs, bind_of_ok (inMaster_of_ok early),
            late]
          simp only [Bool.and_false, Bool.false_and, Bool.or_false]
          exact inMaster_of_ok stopping
      | true =>
          obtain ⟨last, cycled⟩ := exists_cycleAmid company company.early noticed
          have lastEq : company.atJoin scene.master = last := by
            rw [Company.atJoin, if_pos runs, if_pos late, noticedEq, cycled, final]
          rw [lastEq] at stopping
          rw [stop_of_late late runs early cycled stopping, lastEq, noticedEq, Bool.and_self,
            Bool.true_and]

theorem ended_of_idle (company : Company) {scene : Scene ε} (idle : scene.master.running = false) :
    ended company scene = scene := by
  have stopping : Master.stop scene.master = .ok () scene.master := by
    rw [Master.stop, bind_of_ok (get_apply scene.master), idle]
    rfl
  rw [ended, company.atJoin_of_idle idle, stopping, final, Company.outstays, idle, Bool.false_and,
    Bool.false_and, Bool.or_false]

theorem moves_ended {relation : Master ε → Master ε → Prop} [AllowsTask relation]
    (marks : ∀ master, relation master { master with inOp := false }) (company : Company)
    (scene : Scene ε) : relation scene.master (ended company scene).master :=
  IsTrans.trans _ _ _ (company.moves_atJoin marks scene.master) (moves_stop _)

/-- When the task has ended, only one that outlived the wait for its end may be alive. -/
theorem isAlive_ended (company : Company) (scene : Scene ε) :
    (ended company scene).isAlive = (scene.outlived || company.outstays scene.master) := by
  obtain ⟨stopped, stopping, idle, _⟩ := exists_stop (company.atJoin scene.master)
  rw [isAlive, ended, stopping, final, idle, Bool.false_or]

/-- A pass starts from what is left when the task has ended. -/
theorem configure_eq (company : Company) (scene : Scene ε) :
    configure company scene = inMaster Master.configure (ended company scene) := by
  rw [configure, bind_of_ok (stop_eq company scene)]

theorem goOperational_eq (company : Company) (timeout : Number) :
    goOperational (ε := ε) company timeout = (do
      let isReached ← inMaster do
        seed
        await timeout
      if isReached then
        inMaster do
          modify fun master => { master with inOp := true }
          report .info "Reached OP state, bus ready"
      else
        stop company
        inMaster blame) := by
  simp only [goOperational, seed, await, watch, blame, bind_assoc]

section Alone

theorem ended_absent (scene : Scene ε) :
    ended .absent scene = { scene with master := final (Master.stop scene.master) } := by
  rw [ended, Company.atJoin_absent, Company.outstays]
  simp [Company.absent]

/-- Without company a cycle is one of the task. -/
theorem cycleAmid_absent (turn : Nat) : cycleAmid .absent turn = guardedCycle (ε := ε) := by
  have attends : attendTo (ε := ε) .absent turn = updateHandle := by
    funext place
    exact bind_pure_unit
  simp only [cycleAmid, attends, guardedCycle, cycle, bind_assoc, pure_bind, bind_pure_unit]

theorem stop_absent : stop .absent = inMaster (Master.stop (ε := ε)) := by
  funext scene
  obtain ⟨stopped, stopping, _⟩ := exists_stop scene.master
  rw [stop_eq, ended_absent, inMaster_of_ok stopping, stopping, final]

theorem configure_absent : configure .absent = inMaster (Master.configure (ε := ε)) := by
  funext scene
  obtain ⟨stopped, stopping, _⟩ := exists_stop scene.master
  rw [configure_eq, ended_absent, stopping, final]
  exact inMaster_congr_start (configure_of_stopped stopping)

theorem goOperational_absent (timeout : Number) :
    goOperational .absent timeout = inMaster (Master.goOperational (ε := ε) timeout) := by
  rw [goOperational_eq, Master.goOperational_eq, stop_absent, ← bind_assoc]
  refine Eq.trans ?_ (inMaster_bind _ _).symm
  apply congrArg
  funext isReached
  cases isReached with
  | true => rfl
  | false => exact (inMaster_bind Master.stop fun _ => blame).symm

end Alone

end Scene

end Fieldbus
