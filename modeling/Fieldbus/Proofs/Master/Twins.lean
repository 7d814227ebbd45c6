import Fieldbus.Proofs.Master.Maps
import Fieldbus.Proofs.Pdo.Lookups
import Fieldbus.Proofs.Segment.Veil
import Fieldbus.Proofs.Tables

/-!
# Masters that differ in one slave

Two masters of engines in memory are twins if they differ only in what one slave holds
and in what they found out about it.  The functions of a configuration pass couple over
twins: those that work with the other slaves do the same in both, and those that work with
the slave itself change nothing else and do not fail.
-/

namespace Fieldbus

open Fieldbus.Action

namespace Session

/-- Sessions with engines that differ in one slave only. -/
def Twins (place size : Nat) (first second : Session MemoryEngine) : Prop :=
  MemoryEngine.Twins place size first.engine second.engine

variable {place other size count : Nat} {view : MemoryEngine}

theorem couples_report (first second : Notice) :
    Couples (Twins place size) Eq (report first) (report second) := by
  intro left right twins
  exact .ok rfl twins

/-- A session cannot tell engines apart by what it reads of the other slaves. -/
theorem couples_of_reads (different : other ≠ place) {throws : Fault → Prop} {α : Type}
    {action : Action (Session MemoryEngine) α} (talks : Talks (Engine.Reads other) throws action) :
    Couples (Twins place size) Eq action action := by
  refine talks.couples ?_ fun notice => couples_report notice notice
  intro α request reads
  exact Couples.within (MemoryEngine.couples_reads different reads) (fun _ _ twins => twins)
    fun _ _ _ _ _ twins => twins

/-- A session whose engine shows a given view. -/
def Shows (place size : Nat) (view : MemoryEngine) (count : Nat)
    (session : Session MemoryEngine) : Prop :=
  MemoryEngine.Shows place size view count session.engine

theorem contained_ask {α : Type} {request : Action MemoryEngine α} {faults : Fault → Prop}
    {values : α → Prop}
    (contained : Contained (MemoryEngine.Shows place size view count) faults values request) :
    Contained (Shows place size view count) faults values (ask request) := by
  apply Contained.within
  intro session shows
  exact ⟨_, shows, contained, fun _ kept => kept⟩

/-- What a session uploads from the hidden slave is not seen. -/
theorem contained_of_uploads {α : Type} {action : Action (Session MemoryEngine) α}
    (talks : Talks (Engine.Uploads place) (·.isCommunication) action) :
    Contained (Shows place size view count) (·.isCommunication) (fun _ => True) action := by
  refine talks.contained ?_ ?_
  · intro α request uploads
    cases uploads with
    | upload entry size timeout => exact contained_ask (MemoryEngine.contained_upload entry)
  · intro notice session shows
    exact .ok trivial shows

end Session

section Hidden

variable {place size count : Nat} {view : MemoryEngine}

/-- The map of the hidden slave is resolved, or its slave fails, unseen. -/
theorem Layout.contained_resolve (dictionary : Option ObjectDictionary) (timeout : Number) :
    Contained (Session.Shows place size view count) (·.isCommunication) (fun _ => True)
      (Layout.resolve dictionary place timeout) :=
  Session.contained_of_uploads (Layout.talks_resolve dictionary place timeout)

namespace Discovery

theorem isCommunication_withCompleted (completed : List ObjectInfo) (fault : Fault) :
    (withCompleted completed fault).isCommunication = fault.isCommunication := by
  cases fault with
  | objectDescription => rfl
  | entryList => rfl
  | _ => rfl

theorem contained_readObject {item : Nat} (listed : item < count) :
    Contained (Session.Shows place size view count) (·.isCommunication) (fun _ => True)
      (readObject place item) := by
  refine (Session.contained_ask (MemoryEngine.contained_objectDescription listed)).bind ?_
  intro description _
  refine (Session.contained_ask (MemoryEngine.contained_entryList listed)).bind ?_
  intro entries _
  refine (Session.contained_of_uploads (talks_warnAll _ _)).bind ?_
  intro _ _
  exact Contained.pure trivial

theorem contained_readObjectsFrom {length item : Nat} (bounded : item + length ≤ count)
    (completed : List ObjectInfo) :
    Contained (Session.Shows place size view count) (·.isCommunication) (fun _ => True)
      (readObjectsFrom place length item completed) := by
  induction length generalizing item completed with
  | zero => exact Contained.pure trivial
  | succ length ih =>
      have listed : item < count := by omega
      refine ((contained_readObject listed).mapFault ?_).bind ?_
      · intro fault communicates
        rw [isCommunication_withCompleted]
        exact communicates
      · intro object _
        exact ih (by omega) _

/-- The dictionary of the hidden slave is read, or its slave fails, unseen. -/
theorem contained_readObjects :
    Contained (Session.Shows place size view count) (·.isCommunication) (fun _ => True)
      (readObjects place) := by
  refine (Session.contained_ask MemoryEngine.contained_objectList).bind ?_
  intro indices sized
  exact contained_readObjectsFrom (by omega) []

end Discovery

end Hidden

namespace Master

/-- A master with one slave veiled, and its notices as well. -/
def veil (slave : Nat) (master : Master MemoryEngine) : Master MemoryEngine :=
  { master with
    session := ⟨master.engine.veil slave, #[]⟩
    dictionary := ⟨master.dictionary.slaves.without (slave : Int)⟩
    maps := master.maps.without (slave : Int)
    discoveryFaults := master.discoveryFaults.without (slave : Int) }

/-- Settings with which a configuration pass assigns nothing and goes on when a slave
cannot be discovered or its map does not cover its part of the image. -/
structure Lenient (config : BusConfig) (pdoConfig : Option PdoConfig) : Prop where
  assigns : pdoConfig = none
  timeout : ∃ seconds, config.sdoTimeout = .ok seconds
  discovery : config.strictDiscovery.isSet = false
  sizes : config.strictPdoSize.isSet = false

/-- A master of a sound segment with lenient settings. -/
structure Sound (size : Nat) (master : Master MemoryEngine) : Prop where
  segment : master.engine.segment.Sound size
  lenient : Lenient master.config master.pdoConfig

/-- Sound masters that differ in one slave only. -/
structure Twins (slave size : Nat) (first second : Master MemoryEngine) : Prop where
  shown : first.veil slave = second.veil slave
  inside : slave < size
  firstSound : Sound size first
  secondSound : Sound size second

variable {slave other size : Nat} {first second : Master MemoryEngine}

namespace Twins

theorem config (twins : Twins slave size first second) : first.config = second.config :=
  (congrArg Master.config twins.shown :)

theorem running (twins : Twins slave size first second) : first.running = second.running :=
  (congrArg Master.running twins.shown :)

theorem dictionary (twins : Twins slave size first second) :
    first.dictionary.slaves.without (slave : Int) =
      second.dictionary.slaves.without (slave : Int) :=
  (congrArg (·.dictionary.slaves) twins.shown :)

theorem maps (twins : Twins slave size first second) :
    first.maps.without (slave : Int) = second.maps.without (slave : Int) :=
  (congrArg Master.maps twins.shown :)

theorem discoveryFaults (twins : Twins slave size first second) :
    first.discoveryFaults.without (slave : Int) = second.discoveryFaults.without (slave : Int) :=
  (congrArg Master.discoveryFaults twins.shown :)

theorem engines (twins : Twins slave size first second) :
    MemoryEngine.Twins slave size first.engine second.engine where
  shown := (congrArg Master.engine twins.shown :)
  inside := twins.inside
  firstSound := twins.firstSound.segment
  secondSound := twins.secondSound.segment

theorem symm (twins : Twins slave size first second) : Twins slave size second first where
  shown := twins.shown.symm
  inside := twins.inside
  firstSound := twins.secondSound
  secondSound := twins.firstSound

theorem withSessions {left right : Session MemoryEngine} (twins : Twins slave size first second)
    (engines : Session.Twins slave size left right) :
    Twins slave size { first with session := left } { second with session := right } where
  shown := by
    have engineEq : left.engine.veil slave = right.engine.veil slave := engines.shown
    calc ({ first with session := left } : Master MemoryEngine).veil slave
        = { first.veil slave with session := ⟨left.engine.veil slave, #[]⟩ } := rfl
      _ = { second.veil slave with session := ⟨right.engine.veil slave, #[]⟩ } := by
          rw [twins.shown, engineEq]
  inside := twins.inside
  firstSound := ⟨engines.firstSound, twins.firstSound.lenient⟩
  secondSound := ⟨engines.secondSound, twins.secondSound.lenient⟩

end Twins

theorem couples_inSession {α β : Type} {values : α → β → Prop}
    {action : Action (Session MemoryEngine) α} {next : Action (Session MemoryEngine) β}
    (couples : Couples (Session.Twins slave size) values action next) :
    Couples (Twins slave size) values (inSession action) (inSession next) :=
  couples.within (fun _ _ twins => twins.engines)
    fun _ _ _ _ twins engines => twins.withSessions engines

theorem couples_ask {α β : Type} {values : α → β → Prop} {action : Action MemoryEngine α}
    {next : Action MemoryEngine β}
    (couples : Couples (MemoryEngine.Twins slave size) values action next) :
    Couples (Twins slave size) values (ask action) (ask next) :=
  couples_inSession (couples.within (fun _ _ twins => twins) fun _ _ _ _ _ twins => twins)

theorem couples_report (level : Level) (text next : Text) :
    Couples (Twins slave size) Eq (report level text) (report level next) :=
  couples_inSession (Session.couples_report _ _)

theorem couples_sdoTimeout : Couples (Twins slave size) Eq sdoTimeout sdoTimeout := by
  refine Couples.get.bind ?_
  intro left right twins
  rw [twins.config]
  refine (Couples.ofExcept _).bind ?_
  rintro seconds _ rfl
  exact Couples.pure rfl

theorem couples_modify {change : Master MemoryEngine → Master MemoryEngine}
    (shown : ∀ master, (change master).veil slave = change (master.veil slave))
    (sound : ∀ master, Sound size master → Sound size (change master)) :
    Couples (Twins slave size) Eq (modify change : Action (Master MemoryEngine) Unit)
      (modify change) := by
  intro left right twins
  refine .ok rfl ⟨?_, twins.inside, sound _ twins.firstSound, sound _ twins.secondSound⟩
  rw [shown, shown, twins.shown]

section Stages

theorem couples_stop : Couples (Twins slave size) Eq stop stop := by
  have joined : Couples (Twins slave size) Eq (changeEngine Engine.taskJoined)
      (changeEngine Engine.taskJoined) := by
    intro _ _ related
    exact .ok rfl related
  refine Couples.get.bind ?_
  intro left right twins
  rw [twins.running]
  split
  · refine joined.bind ?_
    intro _ _ _
    exact couples_modify (fun _ => rfl) fun _ sound => ⟨sound.segment, sound.lenient⟩
  · exact Couples.pure rfl

theorem couples_reach (state : AlState) :
    Couples (Twins slave size) Eq (reach state) (reach state) := by
  have checked : Couples (Twins slave size) Eq (checkStates state.code)
      (checkStates state.code) := by
    refine (couples_ask (MemoryEngine.couples_checkState _ _)).bind ?_
    rintro found _ rfl
    split
    · exact Couples.throw _
    · exact Couples.pure rfl
  refine (couples_ask (MemoryEngine.couples_takeState _)).bind ?_
  intro _ _ _
  exact checked

theorem couples_prepare :
    Couples (Twins slave size) (fun left right => left = size ∧ right = size) prepare
      prepare := by
  refine couples_stop.bind ?_
  intro _ _ _
  refine Couples.bind
    (couples_modify (fun _ => rfl) fun _ sound => ⟨sound.segment, sound.lenient⟩) ?_
  intro _ _ _
  refine (couples_reach _).bind ?_
  intro _ _ _
  refine (couples_ask MemoryEngine.couples_enumerate).bind ?_
  rintro _ _ ⟨rfl, rfl⟩
  split
  · intro _ _ related
    exact .error _ related
  · refine (couples_report _ _ _).bind ?_
    intro _ _ _
    refine (couples_reach _).bind ?_
    intro _ _ _
    exact Couples.pure ⟨Int.toNat_natCast _, Int.toNat_natCast _⟩

theorem couples_assign (count : Nat) :
    Couples (Twins slave size) Eq (assign count) (assign count) := by
  refine Couples.get.bind ?_
  intro left right twins
  rw [twins.firstSound.lenient.assigns, twins.secondSound.lenient.assigns]
  exact Couples.pure rfl

theorem couples_layOut : Couples (Twins slave size) Eq layOut layOut := by
  refine Couples.bind
    (couples_modify (fun _ => rfl) fun _ sound => ⟨sound.segment, sound.lenient⟩) ?_
  intro _ _ _
  refine (couples_ask MemoryEngine.couples_mapImage).bind ?_
  intro _ _ _
  exact couples_ask (Couples.pure rfl)

end Stages

end Master

end Fieldbus
