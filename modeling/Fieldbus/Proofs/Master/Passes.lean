import Fieldbus.Proofs.Master.Reachable
import Fieldbus.Proofs.Outcome
import Fieldbus.Segment.MemoryEngine

/-!
# What configuration passes leave behind

A configuration pass clears the dictionary and the maps before it lays out the image, and
keeps what it found when discovery has come to its end.  The faults of discovery are not
cleared, so a pass that stops in between leaves those of an earlier pass beside a dictionary
and maps that are empty.  The main statement gives the caches of a master after any commands
from the history of its passes, and says when they describe one pass.
-/

namespace Fieldbus

namespace Master

open Fieldbus.Action

variable {ε : Type}

/-- What a master keeps of its configuration passes. -/
structure Caches where
  dictionary : ObjectDictionary
  maps : Table Int PdoMap
  faults : Table Int Fault

def caches (master : Master ε) : Caches :=
  ⟨master.dictionary, master.maps, master.discoveryFaults⟩

def Caches.empty : Caches :=
  ⟨ObjectDictionary.empty, [], []⟩

def Caches.cleared (caches : Caches) : Caches :=
  { Caches.empty with faults := caches.faults }

theorem Caches.cleared_eq_self_iff {caches : Caches} :
    caches.cleared = caches ↔ caches.dictionary = ObjectDictionary.empty ∧ caches.maps = [] := by
  cases caches
  simp [cleared, Caches.empty, eq_comm]

theorem Caches.cleared_eq_empty_iff {caches : Caches} :
    caches.cleared = Caches.empty ↔ caches.faults = [] := by
  simp [cleared, Caches.empty]

/-- How far a configuration pass comes. -/
inductive Pass where
  /-- It stops before it clears anything, or there is no pass. -/
  | unbegun
  /-- It stops after the dictionary and the maps are cleared and before discovery ends. -/
  | interrupted
  /-- Discovery comes to its end. -/
  | completed (found : Caches)

/-- What a pass makes of the caches. -/
def Pass.leaves : Pass → Caches → Caches
  | unbegun, caches => caches
  | interrupted, caches => caches.cleared
  | completed found, _ => found

instance : AllowsSession (Keep (caches (ε := ε))) where
  session _ _ := rfl

instance [Engine ε] : AllowsStates (Keep (caches (ε := ε))) where
  lastWkc _ _ := rfl
  okCount _ _ := rfl
  errorCount _ _ := rfl
  handles _ _ := rfl
  running _ _ := rfl
  connects _ := moves_ask _
  disconnects := moves_ask _
  opened _ _ := rfl
  inOp _ _ := rfl

variable [Engine ε]

/-- The part of a pass that comes before anything is cleared; the result is the number of
slaves. -/
def ready : Action (Master ε) Nat := do
  let count ← prepare
  assign count
  return count

/-- The part of a pass that clears the caches and fills them again. -/
def survey (count : Nat) : Action (Master ε) Unit := do
  layOut
  discoverAll count

/-- How far a configuration pass of a master comes. -/
def passOf (master : Master ε) : Pass :=
  match ready master with
  | .error _ _ => .unbegun
  | .ok count between =>
      match survey count between with
      | .error _ _ => .interrupted
      | .ok _ after => .completed after.caches

theorem configure_eq :
    configure (ε := ε) = (do
      let count ← ready
      survey count
      validateAll ((← get).maps.map Prod.fst)
      insistOnDiscovery) := by
  simp only [configure, ready, survey, bind_assoc, pure_bind]

theorem moves_ready {relation : Master ε → Master ε → Prop} [AllowsOperation relation] :
    Moves relation (ready (ε := ε)) := by
  refine Moves.bind moves_prepare ?_
  intro count
  refine Moves.bind (moves_assign _) ?_
  intro _
  exact Moves.pure _

theorem caches_layOut (master : Master ε) :
    (final (layOut master)).caches = master.caches.cleared := by
  have asks : ∀ _ : Unit, Moves (Keep caches) (do
      let _ ← ask (Engine.mapImage (ε := ε))
      ask Engine.configureClocks) := by
    intro _
    refine Moves.bind (moves_ask _) ?_
    intro _
    exact moves_ask _
  exact Moves.final_bind asks
    (modify fun master => { master with dictionary := ObjectDictionary.empty, maps := [] }) master

/-- Discovery that fails has kept nothing. -/
theorem caches_of_discoverAll_error {count : Nat} {master after : Master ε} {fault : Fault}
    (failed : discoverAll count master = .error fault after) : after.caches = master.caches := by
  rcases bind_eq_error_iff.mp failed with stopped | ⟨findings, read, discovered, rest⟩
  · have readKeeps : Keep caches master after := (moves_discoverFrom _ _ _).of_error stopped
    exact readKeeps
  have readKeeps : Keep caches master read := (moves_discoverFrom _ _ _).of_ok discovered
  rcases bind_eq_error_iff.mp rest with stopped | ⟨_, resolved, _, kept⟩
  · have resolveKeeps : Keep caches read after := (moves_resolveAll _ _ _ _).of_error stopped
    exact resolveKeeps.trans readKeeps
  · cases kept

theorem caches_of_survey_error {count : Nat} {master after : Master ε} {fault : Fault}
    (failed : survey count master = .error fault after) :
    after.caches = master.caches.cleared := by
  have laid := caches_layOut master
  rcases bind_eq_error_iff.mp failed with stopped | ⟨_, between, laidOut, stopped⟩
  · rwa [stopped] at laid
  · rw [laidOut] at laid
    exact (caches_of_discoverAll_error stopped).trans laid

/-- What a configuration pass makes of the caches is told by how far it comes. -/
theorem caches_configure (master : Master ε) :
    (final (configure master)).caches = (passOf master).leaves master.caches := by
  have readyKeeps : Keep caches master (final (ready master)) := moves_ready master
  rw [configure_eq, passOf]
  cases readied : ready master with
  | error fault after =>
      rw [readied] at readyKeeps
      rw [bind_of_error readied]
      exact readyKeeps
  | ok count between =>
      rw [readied] at readyKeeps
      rw [bind_of_ok readied]
      cases surveyed : survey count between with
      | error fault after =>
          rw [bind_of_error surveyed]
          simp only [surveyed]
          exact (caches_of_survey_error surveyed).trans (congrArg Caches.cleared readyKeeps)
      | ok _ after =>
          rw [bind_of_ok surveyed]
          simp only [surveyed]
          have checksKeep : Moves (Keep caches) (do
              validateAll ((← get (m := Action (Master ε))).maps.map Prod.fst)
              insistOnDiscovery) := by
            refine Moves.bind Moves.get ?_
            intro master
            refine Moves.bind (moves_validateAll _) ?_
            intro _
            exact moves_insistOnDiscovery
          exact checksKeep after

/-- How far the configuration pass of a command comes, if it runs one. -/
def Command.pass : Command → Master ε → Pass
  | configure, master => passOf master
  | openBus _, master =>
      match ask (Engine.connect master.config.adapter) master with
      | .error _ _ => .unbegun
      | .ok _ bound => passOf { bound with opened := true }
  | _, _ => .unbegun

theorem Command.pass_of_not_configures {command : Command} (plain : command.configures = false)
    (master : Master ε) : command.pass master = .unbegun := by
  cases command with
  | openBus operational => cases plain
  | configure => cases plain
  | _ => rfl

theorem caches_openBus (operational : Bool) (master : Master ε) :
    (final (openBus operational master)).caches =
      ((Command.openBus operational).pass master).leaves master.caches := by
  rw [openBus, bind_of_ok (get_apply master), Command.pass]
  have askKeeps : Keep caches master
      (final (ask (Engine.connect master.config.adapter) master)) := moves_ask _ master
  cases connected : ask (Engine.connect master.config.adapter) master with
  | error fault after =>
      rw [connected] at askKeeps
      rw [bind_of_error connected]
      exact askKeeps
  | ok _ bound =>
      rw [connected] at askKeeps
      rw [bind_of_ok connected, bind_of_ok (modify_apply _ bound)]
      have goesOn : ∀ _ : Unit, Moves (Keep caches)
          (if operational then goOperational (ε := ε) operationalTimeout else pure ()) := by
        intro _
        split
        · exact moves_goOperational _
        · exact Moves.pure _
      have closes : ∀ fault : Fault, Moves (Keep caches) (do
          close (ε := ε)
          throw fault : Action (Master ε) Unit) := by
        intro fault
        refine Moves.bind moves_close ?_
        intro _
        exact Moves.throw _
      have afterPass := Moves.final_bind goesOn configure { bound with opened := true }
      have afterFault := Moves.final_catching closes Fault.isLibrary (opening operational)
        { bound with opened := true }
      have found := caches_configure { bound with opened := true }
      exact (afterFault.trans afterPass).trans
        (found.trans (congrArg (passOf { bound with opened := true }).leaves askKeeps))

theorem caches_perform (command : Command) (master : Master ε) :
    (final (command.perform master)).caches = (command.pass master).leaves master.caches := by
  cases kind : command.configures with
  | false =>
      rw [Command.pass_of_not_configures kind]
      have keeps : Keep caches master (final (command.perform master)) :=
        moves_perform_of_not_configures kind master
      exact keeps
  | true =>
      cases command with
      | openBus operational => exact caches_openBus operational master
      | configure => exact caches_configure master
      | _ => cases kind

/-- The configuration passes of a master so far: what the last completed one found, and
whether one was interrupted since. -/
structure History where
  found : Caches
  interrupted : Bool

namespace History

def initial : History :=
  ⟨Caches.empty, false⟩

def next : History → Pass → History
  | history, .unbegun => history
  | history, .interrupted => { history with interrupted := true }
  | _, .completed found => ⟨found, false⟩

/-- The history after commands that are carried out one after the other. -/
def along : List Command → Master ε → History → History
  | [], _, history => history
  | command :: rest, master, history =>
      along rest (final (command.perform master)) (history.next (command.pass master))

def caches (history : History) : Caches :=
  if history.interrupted then history.found.cleared else history.found

omit [Engine ε] in
theorem caches_next (history : History) (pass : Pass) :
    (history.next pass).caches = pass.leaves history.caches := by
  cases pass with
  | unbegun => rfl
  | interrupted => cases interrupted : history.interrupted <;> simp [caches, next, Pass.leaves,
      Caches.cleared, interrupted]
  | completed found => rfl

end History

theorem caches_performAll (commands : List Command) {master : Master ε} {history : History}
    (known : master.caches = history.caches) :
    (Command.performAll commands master).caches =
      (History.along commands master history).caches := by
  induction commands generalizing master history with
  | nil => exact known
  | cons command rest ih =>
      apply ih
      rw [caches_perform, known, History.caches_next]

/-- The caches describe one pass: they are what the last completed pass found, or all of
them are empty. -/
def DescribesOnePass (history : History) (caches : Caches) : Prop :=
  caches = history.found ∨ caches = Caches.empty

/-- After any commands, each of which may fail at any stage, the caches of a master are those
that its history leaves.  They describe one pass exactly if no pass was interrupted since the
last completed one, or that one had no fault to report, or found nothing else. -/
theorem describesOnePass_iff {start : Master ε} (fresh : start.caches = Caches.empty)
    (commands : List Command) :
    (Command.performAll commands start).caches =
        (History.along commands start History.initial).caches ∧
      (DescribesOnePass (History.along commands start History.initial)
          (Command.performAll commands start).caches ↔
        ((History.along commands start History.initial).interrupted = true →
          (History.along commands start History.initial).found.faults = [] ∨
          (History.along commands start History.initial).found.dictionary =
              ObjectDictionary.empty ∧
            (History.along commands start History.initial).found.maps = [])) := by
  have left : (Command.performAll commands start).caches =
      (History.along commands start History.initial).caches := caches_performAll commands fresh
  refine ⟨left, ?_⟩
  rw [left]
  generalize History.along commands start History.initial = history
  rw [DescribesOnePass, History.caches]
  cases history.interrupted with
  | false => simp
  | true => simp [Caches.cleared_eq_self_iff, Caches.cleared_eq_empty_iff, or_comm]

/-- An engine that does not lay out its image again. -/
def StallingEngine : Type :=
  MemoryEngine

instance : Engine StallingEngine :=
  let plain : Engine StallingEngine := inferInstanceAs (Engine MemoryEngine)
  { plain with
    mapImage := do
      let engine : MemoryEngine ← get
      if engine.outputs.isEmpty then MemoryEngine.mapImage
      else throw (.configuration (.engine "map failed")) }

/-- A bus with that engine, of which the first slave does not list its objects and the second one
has an object and an empty map. -/
def stallingMaster : Master StallingEngine :=
  idle BusConfig.defaults none (MemoryEngine.ofSegment { Segment.bare with
    slaves := [
      { SimulatedSlave.plain with listError := some ⟨.sdoInfo, "no mailbox", none, none⟩ },
      { SimulatedSlave.plain with
        objects := [⟨0x1000, 0, 7, some 0, .text "Device type",
          [⟨7, 32, 7, .text "Device type"⟩], 32, 7⟩]
        mailbox := [(⟨0x1c00, 0⟩, [.data [2]])] }] })

/-- The second pass on that bus cannot lay out the image, and leaves the fault of the first one
beside a dictionary and maps that are empty. -/
theorem describesOnePass_iff_stallingMaster :
    stallingMaster.caches = Caches.empty ∧
      ¬ DescribesOnePass
        (History.along [.openBus false, .configure] stallingMaster History.initial)
        (Command.performAll [.openBus false, .configure] stallingMaster).caches ∧
      (match configure (Command.performAll [.openBus false] stallingMaster) with
        | .error (.configuration (.engine _)) _ => true
        | _ => false) = true ∧
      (Command.performAll [.openBus false, .configure] stallingMaster).dictionary =
        ObjectDictionary.empty ∧
      (Command.performAll [.openBus false, .configure] stallingMaster).discoveryFaults.map
        Prod.fst = [0] := by
  have fresh : stallingMaster.caches = Caches.empty := rfl
  have interrupted : (History.along [.openBus false, .configure] stallingMaster
      History.initial).interrupted = true := by
    decide +kernel
  have reported : (History.along [.openBus false, .configure] stallingMaster
      History.initial).found.faults.length = 1 := by
    decide +kernel
  have listed : (History.along [.openBus false, .configure] stallingMaster
      History.initial).found.dictionary.size = 1 := by
    decide +kernel
  refine ⟨fresh, ?_, by decide +kernel, by decide +kernel, by decide +kernel⟩
  have onePass := (describesOnePass_iff fresh [.openBus false, .configure]).2
  rw [onePass]
  intro found
  rcases found interrupted with noFaults | ⟨noObjects, _⟩
  · rw [noFaults] at reported
    simp at reported
  · rw [noObjects] at listed
    simp [ObjectDictionary.size, ObjectDictionary.empty] at listed

end Master

end Fieldbus
