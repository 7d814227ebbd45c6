import Fieldbus.Proofs.Log
import Fieldbus.Proofs.Master.Footprint

/-!
# Logged engines

An engine together with a log of what it was asked and what it answered, and of the events that
it was told.  The log changes neither what the engine does nor how it ends, so that a run over a
logged engine is a run over any engine, with its history beside it.
-/

namespace Fieldbus

open Fieldbus.Action

/-- A request with its answer, or an event of the process-data task. -/
inductive Event where
  | connect (adapter : Payload) (answer : Except Fault Unit)
  | disconnect (answer : Except Fault Unit)
  | enumerate (answer : Except Fault Int)
  | mapImage (answer : Except Fault Int)
  | configureClocks (answer : Except Fault Unit)
  | slaveInfo (slave : Int) (answer : Except Fault SlaveInfo)
  | requestState (state : Int) (answer : Except Fault Unit)
  | checkState (state : Int) (timeout : Number) (answer : Except Fault Int)
  | readState (answer : Except Fault Int)
  | slaveState (slave : Int) (answer : Except Fault (Int × Int))
  | upload (slave : Int) (entry : EntryIndex) (complete : Bool) (size : Int)
      (timeout : Number) (answer : Except Fault Bytes)
  | download (slave : Int) (entry : EntryIndex) (complete : Bool) (data : Bytes)
      (timeout : Number) (answer : Except Fault Unit)
  | objectList (slave : Int) (answer : Except Fault (List Int))
  | objectDescription (slave item : Int) (answer : Except Fault ObjectDescription)
  | entryList (slave item : Int) (answer : Except Fault (List EntryDescription))
  | expectedWkc (answer : Except Fault Int)
  | outputRange (slave : Int) (answer : Except Fault ImageRange)
  | inputRange (slave : Int) (answer : Except Fault ImageRange)
  | exchange (timeout : Number) (answer : Except Fault Int)
  | taskStarted
  | taskJoined

/-- An engine with its log. -/
structure Logged (ε : Type) where
  engine : ε
  events : List Event

namespace Logged

variable {ε α : Type}

/-- Let the engine act, and write down its answer. -/
def noting (event : Except Fault α → Event) (action : Action ε α) : Action (Logged ε) α :=
  fun logged =>
    match action logged.engine with
    | .ok value engine => .ok value ⟨engine, logged.events ++ [event (.ok value)]⟩
    | .error fault engine => .error fault ⟨engine, logged.events ++ [event (.error fault)]⟩

def change (update : ε → ε) (logged : Logged ε) : Logged ε :=
  { logged with engine := update logged.engine }

def note (event : Event) (logged : Logged ε) : Logged ε :=
  { logged with events := logged.events ++ [event] }

def erased : EStateM.Result Fault (Logged ε) α → EStateM.Result Fault ε α
  | .ok value logged => .ok value logged.engine
  | .error fault logged => .error fault logged.engine

/-- The log changes neither what the engine does nor how it ends. -/
theorem erased_noting (event : Except Fault α → Event) (action : Action ε α)
    (logged : Logged ε) : erased (noting event action logged) = action logged.engine := by
  unfold noting
  cases action logged.engine with
  | ok value engine => rfl
  | error fault engine => rfl

/-- A request that is noted tells any story of its answer and of the one event. -/
theorem tells_noted {story : Except Fault α → List Event → Prop} {request : Action (Logged ε) α}
    (event : Except Fault α → Event) (action : Action ε α) (noted : request = noting event action)
    (told : ∀ answer, story answer [event answer]) :
    Tells (fun _ => True) events story request := by
  rw [noted]
  intro logged _
  refine ⟨[event (outcome (noting event action logged))], ?_, trivial, told _⟩
  unfold noting
  cases action logged.engine with
  | ok value engine => rfl
  | error fault engine => rfl

end Logged

open Logged in
instance {ε : Type} [Engine ε] : Engine (Logged ε) where
  connect adapter := noting (.connect adapter) (Engine.connect adapter)
  disconnect := noting .disconnect Engine.disconnect
  enumerate := noting .enumerate Engine.enumerate
  mapImage := noting .mapImage Engine.mapImage
  configureClocks := noting .configureClocks Engine.configureClocks
  slaveCount logged := Engine.slaveCount logged.engine
  slaveInfo slave := noting (.slaveInfo slave) (Engine.slaveInfo slave)
  requestState state := noting (.requestState state) (Engine.requestState state)
  checkState state timeout :=
    noting (.checkState state timeout) (Engine.checkState state timeout)
  readState := noting .readState Engine.readState
  slaveState slave := noting (.slaveState slave) (Engine.slaveState slave)
  upload slave entry complete size timeout :=
    noting (.upload slave entry complete size timeout)
      (Engine.upload slave entry complete size timeout)
  download slave entry complete data timeout :=
    noting (.download slave entry complete data timeout)
      (Engine.download slave entry complete data timeout)
  objectList slave := noting (.objectList slave) (Engine.objectList slave)
  objectDescription slave item :=
    noting (.objectDescription slave item) (Engine.objectDescription slave item)
  entryList slave item := noting (.entryList slave item) (Engine.entryList slave item)
  expectedWkc := noting .expectedWkc Engine.expectedWkc
  outputRange slave := noting (.outputRange slave) (Engine.outputRange slave)
  inputRange slave := noting (.inputRange slave) (Engine.inputRange slave)
  exchange timeout := noting (.exchange timeout) (Engine.exchange timeout)
  image logged := Engine.image logged.engine
  setImage logged image := logged.change (Engine.setImage · image)
  now logged := Engine.now logged.engine
  wait logged seconds := logged.change (Engine.wait · seconds)
  taskStarted logged := (logged.note .taskStarted).change Engine.taskStarted
  taskJoined logged := (logged.note .taskJoined).change Engine.taskJoined

namespace Session

variable {ε α : Type}

def events (session : Session (Logged ε)) : List Event :=
  session.engine.events

theorem tells_ask {story : Except Fault α → List Event → Prop} {request : Action (Logged ε) α}
    (tells : Tells (fun _ => True) Logged.events story request) :
    Tells (fun _ => True) events story (ask request) :=
  tells.within (fun _ => rfl) (fun _ _ => rfl) fun _ _ _ => trivial

theorem tells_report {story : Except Fault Unit → List Event → Prop} (notice : Notice)
    (told : story (.ok ()) []) :
    Tells (fun _ => True) (events (ε := ε)) story (report notice) := by
  intro session _
  exact ⟨[], (List.append_nil _).symm, trivial, told⟩

theorem Talks.tells {asks : ∀ {β : Type}, Action (Logged ε) β → Prop} {throws : Fault → Prop}
    {kind : Event → Prop}
    (asked : ∀ {β : Type} {request : Action (Logged ε) β}, asks request →
      Tells (fun _ => True) Logged.events (fun _ written => ∀ event ∈ written, kind event) request)
    {action : Action (Session (Logged ε)) α} (talks : Talks asks throws action) :
    Tells (fun _ => True) events (fun _ written => ∀ event ∈ written, kind event) action := by
  have nothing : ∀ event ∈ ([] : List Event), kind event := by simp
  induction talks with
  | pure value => exact .pure nothing
  | throw _ => exact .throw nothing
  | ask allowed => exact tells_ask (asked allowed)
  | report notice => exact tells_report notice nothing
  | mapFault _ _ ih => exact .mapFault ih
  | bind _ _ first second =>
      refine first.bind (fun _ _ told => told) ?_
      intro value written told
      refine (second value).mono ?_
      intro _ more toldMore
      exact List.forall_mem_append.mpr ⟨told, toldMore⟩

end Session

def Event.IsUploadOf (slave : Int) (event : Event) : Prop :=
  ∃ entry size timeout answer, event = .upload slave entry false size timeout answer

/-- Resolving the map of a slave only uploads entries of this slave. -/
theorem Layout.tells_uploads {ε : Type} [Engine ε] (dictionary : Option ObjectDictionary)
    (slave : Int) (timeout : Number) :
    Tells (fun _ => True) (Session.events (ε := ε))
      (fun _ written => ∀ event ∈ written, event.IsUploadOf slave)
      (resolve dictionary slave timeout) := by
  refine (talks_resolve dictionary slave timeout).tells ?_
  rintro _ _ ⟨entry, size, timeout⟩
  apply Logged.tells_noted (.upload slave entry false size timeout) _ rfl
  intro answer event member
  exact ⟨entry, size, timeout, answer, List.mem_singleton.mp member⟩

namespace Master

variable {ε α : Type}

def events (master : Master (Logged ε)) : List Event :=
  master.engine.events

variable {proper : Master (Logged ε) → Prop}

theorem tells_inSession [AllowsSession (Preserve proper)]
    {story : Except Fault α → List Event → Prop} {action : Action (Session (Logged ε)) α}
    (tells : Tells (fun _ => True) Session.events story action) :
    Tells proper events story (inSession action) :=
  tells.within (fun _ => rfl) (fun _ _ => rfl) fun master session known =>
    (AllowsSession.session master session : Preserve proper master _) known

theorem tells_ask [AllowsSession (Preserve proper)] {story : Except Fault α → List Event → Prop}
    {request : Action (Logged ε) α} (tells : Tells (fun _ => True) Logged.events story request) :
    Tells proper events story (ask request) :=
  tells_inSession (Session.tells_ask tells)

theorem tells_report [AllowsSession (Preserve proper)]
    {story : Except Fault Unit → List Event → Prop} (level : Level) (text : Text)
    (told : story (.ok ()) []) : Tells proper events story (report level text) :=
  tells_inSession (Session.tells_report _ told)

theorem tells_sdoTimeout {story : Except Fault Number → List Event → Prop}
    (told : ∀ master, proper master →
      story ((master.config.sdoTimeout.mapError Fault.accident).map Number.real) []) :
    Tells proper events story sdoTimeout := by
  apply Tells.of_unmoved
  · have unmoved : Moves (Keep id) (sdoTimeout (ε := Logged ε)) := moves_sdoTimeout
    exact unmoved
  · intro master known
    have told := told master known
    have ends : outcome (sdoTimeout master) =
        (master.config.sdoTimeout.mapError Fault.accident).map Number.real := by
      rw [sdoTimeout, bind_of_ok (get_apply master), ofAccident]
      cases master.config.sdoTimeout with
      | ok seconds => rfl
      | error accident => rfl
    rw [ends]
    exact told

end Master

end Fieldbus
