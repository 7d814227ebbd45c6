import Fieldbus.Proofs.Dialogue
import Fieldbus.Proofs.Segment.Uploads

/-!
# Veiling a slave of a simulated segment

What an engine in memory shows if the objects, the mailbox and the failures of one slave are
not seen, and neither is how much time uploads take.  Engines that show the same cannot be
told apart by requests to the other slaves.  Requests to the hidden slave leave alone what is
shown, and fail only with faults of the exchange.
-/

namespace Fieldbus

/-- What remains of a slave whose objects, mailbox and failures are not seen. -/
def SimulatedSlave.shell (slave : SimulatedSlave) : SimulatedSlave :=
  { slave with
    objects := []
    mailbox := []
    complete := []
    writeErrors := []
    listError := none
    descriptionError := none
    entriesError := none }

/-- Whether a slave takes a state is not hidden. -/
theorem SimulatedSlave.shell_take (slave : SimulatedSlave) (state : Int) :
    (slave.take state).shell = slave.shell.take state := by
  have refusedEq : slave.shell.refused = slave.refused := rfl
  rw [take, take, refusedEq]
  split
  · rfl
  · rfl

namespace Segment

/-- A segment with one slave hidden, and its time as well. -/
def veil (place : Nat) (segment : Segment) : Segment :=
  { segment with
    slaves := segment.slaves.modify place SimulatedSlave.shell
    uploadMicros := []
    clock := Binary64.zero }

/-- A segment of some number of slaves, which is also the number that enumeration reports.
Every upload takes a time in range. -/
structure Sound (size : Nat) (segment : Segment) : Prop where
  sized : segment.slaves.length = size
  honest : segment.enumerated = none
  timely : ∀ micros ∈ segment.uploadMicros, ∃ seconds, secondsOf micros = .ok seconds

variable {place other size : Nat} {segment : Segment}

theorem getElem?_veil_of_ne (different : other ≠ place) :
    (segment.veil place).slaves[other]? = segment.slaves[other]? := by
  rw [veil, List.getElem?_modify_ne _ _ (Ne.symm different)]

/-- What does not depend on the hidden parts of a slave is shown of all slaves. -/
theorem map_veil {α : Type} {view : SimulatedSlave → α}
    (seen : ∀ slave, view slave.shell = view slave) :
    (segment.veil place).slaves.map view = segment.slaves.map view := by
  apply List.ext_getElem?
  intro index
  rw [List.getElem?_map, List.getElem?_map]
  by_cases same : index = place
  · subst same
    rw [veil, List.getElem?_modify_eq, Option.map_eq_map, Option.map_map]
    congr 1
    funext slave
    exact seen slave
  · rw [getElem?_veil_of_ne same]

theorem veil_takeState (state : Int) :
    (segment.takeState state).veil place = (segment.veil place).takeState state := by
  have slavesEq : (segment.slaves.map (·.take state)).modify place SimulatedSlave.shell =
      (segment.slaves.modify place SimulatedSlave.shell).map (·.take state) := by
    apply List.ext_getElem?
    intro index
    by_cases same : place = index
    · subst same
      simp only [List.getElem?_modify_eq, List.getElem?_map, Option.map_eq_map, Option.map_map]
      congr 1
      funext slave
      exact SimulatedSlave.shell_take slave state
    · simp only [List.getElem?_map, List.getElem?_modify_ne _ _ same]
  simp only [veil, takeState, slavesEq]

theorem veil_findState (state : Int) :
    (segment.veil place).findState state =
      ((segment.findState state).1, (segment.findState state).2.veil place) := by
  have lowestEq : (segment.veil place).lowestState? = segment.lowestState? := by
    rw [lowestState?, lowestState?, map_veil fun _ => rfl]
  have scriptEq : (segment.veil place).foundStates = segment.foundStates := rfl
  rw [findState, findState, scriptEq, lowestEq]
  split
  · rfl
  · rfl

theorem veil_setSlave_of_ne (different : other ≠ place) (slave : SimulatedSlave) :
    (segment.setSlave other slave).veil place = (segment.veil place).setSlave other slave := by
  have slavesEq : (segment.slaves.set other slave).modify place SimulatedSlave.shell =
      (segment.slaves.modify place SimulatedSlave.shell).set other slave := by
    apply List.ext_getElem?
    intro index
    by_cases same : place = index
    · subst same
      simp only [List.getElem?_modify_eq, List.getElem?_set_ne different]
    · simp only [List.getElem?_modify_ne _ _ same, List.getElem?_set, List.length_modify]
  simp only [veil, setSlave, slavesEq]

theorem veil_setSlave {slave after : SimulatedSlave}
    (found : segment.slaves[place]? = some slave) (shellEq : after.shell = slave.shell) :
    (segment.setSlave place after).veil place = segment.veil place := by
  have slavesEq : (segment.slaves.set place after).modify place SimulatedSlave.shell =
      segment.slaves.modify place SimulatedSlave.shell := by
    have inside := (List.getElem?_eq_some_iff.mp found).1
    apply List.ext_getElem?
    intro index
    by_cases same : place = index
    · subst same
      simp only [List.getElem?_modify_eq, List.getElem?_set_self inside, found]
      exact congrArg some shellEq
    · simp only [List.getElem?_modify_ne _ _ same, List.getElem?_set_ne same]
  simp only [veil, setSlave, slavesEq]

theorem mem_of_mem_next {α : Type} {script : Script α} {answer : α}
    (member : answer ∈ script.next.2 ∨ script.next.1 = some answer) : answer ∈ script := by
  match script with
  | [] => simp [Script.next] at member
  | [_] => simpa [Script.next, eq_comm] using member
  | first :: second :: rest =>
      rcases member with later | now
      · exact List.mem_cons_of_mem _ later
      · cases now
        exact List.mem_cons_self

/-- The time of an upload passes unseen if it is in range. -/
theorem passUpload_of_sound (sound : segment.Sound size) :
    ∃ after, passUpload segment = .ok () after ∧ after.slaves = segment.slaves ∧
      after.Sound size ∧ ∀ place, after.veil place = segment.veil place := by
  obtain ⟨seconds, instant⟩ :
      ∃ seconds, secondsOf (segment.uploadMicros.next.1.getD (.int 0)) = .ok seconds := by
    cases script : segment.uploadMicros.next.1 with
    | none => exact MemoryEngine.exists_secondsOf_zero
    | some micros => exact sound.timely micros (mem_of_mem_next (Or.inr script))
  let rested : Segment := { segment with uploadMicros := segment.uploadMicros.next.2 }
  have passed : passMicros (segment.uploadMicros.next.1.getD (.int 0)) rested =
      .ok () (rested.pass seconds) := by
    rw [passMicros, instant]
    rfl
  have outcome : passUpload segment = .ok () (rested.pass seconds) := by
    rw [passUpload, Action.bind_of_ok (Action.get_apply _)]
    dsimp only
    rw [Action.bind_of_ok (Action.modify_apply _ _), passed]
  have kept : (rested.pass seconds).Sound size := by
    refine ⟨sound.sized, sound.honest, ?_⟩
    intro micros member
    exact sound.timely micros (mem_of_mem_next (Or.inl member))
  exact ⟨rested.pass seconds, outcome, rfl, kept, fun _ => rfl⟩

end Segment

namespace MemoryEngine

open Fieldbus.Action

/-- An engine with one slave hidden. -/
def veil (place : Nat) (engine : MemoryEngine) : MemoryEngine :=
  { engine with segment := engine.segment.veil place }

/-- Two engines that differ only in what is hidden of one slave and in the time. -/
structure Twins (place size : Nat) (first second : MemoryEngine) : Prop where
  shown : first.veil place = second.veil place
  inside : place < size
  firstSound : first.segment.Sound size
  secondSound : second.segment.Sound size

/-- An engine that shows a given view, with a number of objects of the hidden slave. -/
structure Shows (place size : Nat) (view : MemoryEngine) (count : Nat) (engine : MemoryEngine) :
    Prop where
  shown : engine.veil place = view
  slave : ∃ slave, engine.segment.slaves[place]? = some slave ∧ slave.objects.length = count
  sound : engine.segment.Sound size

variable {place other size count : Nat} {first second engine view : MemoryEngine}

theorem slaveAt_apply (position : Nat) (engine : MemoryEngine) :
    slaveAt position engine =
      match engine.segment.slaves[position]? with
      | some found => .ok (position, found) engine
      | none => .error (.accident .position) engine := by
  have nonneg : ¬ (position : Int) < 0 := by omega
  rw [slaveAt, bind_of_ok (get_apply engine), Segment.slave?, Segment.place?]
  simp only [if_neg nonneg]
  by_cases inside : position < engine.segment.slaves.length
  · have bounds : 0 ≤ (position : Int) ∧ (position : Int) < engine.segment.slaves.length := by
      omega
    simp only [if_pos bounds, Int.toNat_natCast, Option.bind_some, List.getElem?_eq_getElem inside]
    rfl
  · have bounds : ¬ (0 ≤ (position : Int) ∧ (position : Int) < engine.segment.slaves.length) := by
      omega
    simp only [if_neg bounds, List.getElem?_eq_none (Nat.le_of_not_lt inside)]
    rfl

namespace Twins

theorem symm (twins : Twins place size first second) : Twins place size second first where
  shown := twins.shown.symm
  inside := twins.inside
  firstSound := twins.secondSound
  secondSound := twins.firstSound

theorem getElem? (twins : Twins place size first second) (different : other ≠ place) :
    first.segment.slaves[other]? = second.segment.slaves[other]? := by
  have same := congrArg (·.segment.slaves[other]?) twins.shown
  simpa only [MemoryEngine.veil, Segment.getElem?_veil_of_ne different] using same

theorem shows (twins : Twins place size first second) :
    ∃ count, Shows place size (second.veil place) count first := by
  have inside : place < first.segment.slaves.length := twins.firstSound.sized ▸ twins.inside
  exact ⟨_, twins.shown, ⟨_, List.getElem?_eq_getElem inside, rfl⟩, twins.firstSound⟩

theorem of_shows (twins : Twins place size first second)
    (shows : Shows place size (second.veil place) count engine) :
    Twins place size engine second where
  shown := shows.shown
  inside := twins.inside
  firstSound := shows.sound
  secondSound := twins.secondSound

theorem withSegments (twins : Twins place size first second) {left right : Segment}
    (shown : left.veil place = right.veil place) (leftSound : left.Sound size)
    (rightSound : right.Sound size) :
    Twins place size { first with segment := left } { second with segment := right } where
  shown := by
    have before := twins.shown
    simp only [MemoryEngine.veil, MemoryEngine.mk.injEq] at before
    simp only [MemoryEngine.veil, shown, before]
  inside := twins.inside
  firstSound := leftSound
  secondSound := rightSound

end Twins

theorem couples_slaveAt (different : other ≠ place) :
    Couples (Twins place size) (fun left right => left = right ∧ left.1 ≠ place)
      (slaveAt other) (slaveAt other) := by
  intro left right twins
  rw [slaveAt_apply, slaveAt_apply, twins.getElem? different]
  cases right.segment.slaves[other]? with
  | none => exact .error _ twins
  | some found => exact .ok ⟨rfl, different⟩ twins

/-- A change of the segment that can be told from what is shown. -/
theorem couples_inSegment {α : Type} {update : Segment → α × Segment}
    (view : Segment → α × Segment)
    (shown : ∀ segment,
      ((update segment).1, (update segment).2.veil place) = view (segment.veil place))
    (sound : ∀ segment, segment.Sound size → (update segment).2.Sound size) :
    Couples (Twins place size) Eq (inSegment (modifyGet update))
      (inSegment (modifyGet update)) := by
  intro left right twins
  have before : left.segment.veil place = right.segment.veil place :=
    congrArg MemoryEngine.segment twins.shown
  have same := (shown left.segment).trans ((congrArg view before).trans (shown right.segment).symm)
  obtain ⟨resultEq, shownEq⟩ := Prod.mk.inj same
  exact .ok resultEq
    (twins.withSegments shownEq (sound _ twins.firstSound) (sound _ twins.secondSound))

theorem couples_change {update : Segment → Segment} (view : Segment → Segment)
    (shown : ∀ segment, (update segment).veil place = view (segment.veil place))
    (sound : ∀ segment, segment.Sound size → (update segment).Sound size) :
    Couples (Twins place size) Eq (change update) (change update) :=
  couples_inSegment (fun segment => ((), view segment))
    (fun segment => congrArg (Prod.mk ()) (shown segment)) sound

theorem couples_passUpload :
    Couples (Twins place size) (fun _ _ => True) (inSegment Segment.passUpload)
      (inSegment Segment.passUpload) := by
  intro left right twins
  obtain ⟨leftAfter, leftPassed, _, leftSound, leftShown⟩ :=
    Segment.passUpload_of_sound twins.firstSound
  obtain ⟨rightAfter, rightPassed, _, rightSound, rightShown⟩ :=
    Segment.passUpload_of_sound twins.secondSound
  have leftOutcome : inSegment Segment.passUpload left =
      .ok () { left with segment := leftAfter } := within_eq_ok_iff.mpr ⟨_, leftPassed, rfl⟩
  have rightOutcome : inSegment Segment.passUpload right =
      .ok () { right with segment := rightAfter } := within_eq_ok_iff.mpr ⟨_, rightPassed, rfl⟩
  have before : left.segment.veil place = right.segment.veil place :=
    congrArg MemoryEngine.segment twins.shown
  have shown : leftAfter.veil place = rightAfter.veil place := by
    rw [leftShown, rightShown, before]
  rw [leftOutcome, rightOutcome]
  exact .ok trivial (twins.withSegments shown leftSound rightSound)

section Requests

theorem couples_upload (different : other ≠ place) (entry : EntryIndex) (complete : Bool) :
    Couples (Twins place size) Eq (upload other entry complete) (upload other entry complete) := by
  refine (couples_slaveAt different).bind ?_
  rintro ⟨location, found⟩ _ ⟨rfl, apart⟩
  refine couples_passUpload.bind ?_
  intro _ _ _
  refine Couples.bind (couples_change (fun segment => segment.setSlave location _)
    (fun _ => Segment.veil_setSlave_of_ne apart _) fun _ sound =>
      ⟨List.length_set.trans sound.sized, sound.honest, sound.timely⟩) ?_
  intro _ _ _
  dsimp only
  split
  · exact Couples.pure rfl
  · exact Couples.throw _
  · exact Couples.throw _

theorem couples_objectList (different : other ≠ place) :
    Couples (Twins place size) Eq (objectList other) (objectList other) := by
  refine (couples_slaveAt different).bind ?_
  rintro ⟨location, found⟩ _ ⟨rfl, _⟩
  dsimp only
  split
  · exact Couples.throw _
  · exact Couples.pure rfl

theorem couples_objectAt (slave : SimulatedSlave) (item : Int) :
    Couples (Twins place size) Eq (objectAt slave item) (objectAt slave item) := by
  rw [objectAt]
  split
  · exact Couples.pure rfl
  · exact Couples.throw _

theorem couples_objectDescription (different : other ≠ place) (item : Int) :
    Couples (Twins place size) Eq (objectDescription other item)
      (objectDescription other item) := by
  refine (couples_slaveAt different).bind ?_
  rintro ⟨location, found⟩ _ ⟨rfl, _⟩
  dsimp only
  split
  · exact Couples.throw _
  · refine (couples_objectAt _ _).bind ?_
    rintro object _ rfl
    exact Couples.pure rfl

theorem couples_entryList (different : other ≠ place) (item : Int) :
    Couples (Twins place size) Eq (entryList other item) (entryList other item) := by
  refine (couples_slaveAt different).bind ?_
  rintro ⟨location, found⟩ _ ⟨rfl, _⟩
  dsimp only
  split
  · exact Couples.throw _
  · refine (couples_objectAt _ _).bind ?_
    rintro object _ rfl
    exact Couples.pure rfl

theorem couples_reads (different : other ≠ place) {α : Type} {request : Action MemoryEngine α}
    (reads : Engine.Reads other request) : Couples (Twins place size) Eq request request := by
  cases reads with
  | upload entry size timeout => exact couples_upload different entry false
  | objectList => exact couples_objectList different
  | objectDescription item => exact couples_objectDescription different item
  | entryList item => exact couples_entryList different item

theorem couples_slaveInfo (different : other ≠ place) :
    Couples (Twins place size) Eq (slaveInfo other) (slaveInfo other) := by
  refine (couples_slaveAt different).bind ?_
  rintro ⟨location, found⟩ _ ⟨rfl, _⟩
  exact Couples.pure rfl

theorem couples_enumerate :
    Couples (Twins place size) (fun left right : Int => left = size ∧ right = size) enumerate
      enumerate := by
  intro left right twins
  have counted {engine : MemoryEngine} (sound : engine.segment.Sound size) :
      enumerate engine = .ok (size : Int) engine := by
    rw [enumerate, bind_of_ok (get_apply engine), sound.honest, sound.sized]
    rfl
  rw [counted twins.firstSound, counted twins.secondSound]
  exact .ok ⟨rfl, rfl⟩ twins

theorem couples_takeState (state : Int) :
    Couples (Twins place size) Eq (change (·.takeState state)) (change (·.takeState state)) :=
  couples_change (·.takeState state) (fun _ => Segment.veil_takeState state)
    fun _ sound => ⟨(List.length_map _).trans sound.sized, sound.honest, sound.timely⟩

theorem couples_checkState (state : Int) (timeout : Number) :
    Couples (Twins place size) Eq (checkState state timeout) (checkState state timeout) := by
  have kept (segment : Segment) (sound : segment.Sound size) :
      (segment.findState state).2.Sound size := by
    rw [Segment.findState]
    split
    · exact ⟨sound.sized, sound.honest, sound.timely⟩
    · exact sound
  refine Couples.bind (couples_inSegment (·.findState state)
    (fun _ => (Segment.veil_findState state).symm) kept) ?_
  rintro found _ rfl
  have passed (duration : Binary64) :
      Couples (Twins place size) Eq (change (·.pass duration)) (change (·.pass duration)) :=
    couples_change id (fun _ => rfl) fun _ sound => ⟨sound.sized, sound.honest, sound.timely⟩
  dsimp only
  split
  · refine Couples.bind (Couples.ofExcept _) ?_
    rintro duration _ rfl
    refine (passed duration).bind ?_
    intro _ _ _
    exact Couples.pure rfl
  · exact Couples.pure rfl

theorem couples_mapImage : Couples (Twins place size) Eq mapImage mapImage := by
  refine Couples.get.bind ?_
  intro left right twins
  have errorEq : left.segment.mapError = right.segment.mapError :=
    congrArg (·.segment.mapError) twins.shown
  have mapEq {β : Type} (view : SimulatedSlave → β)
      (seen : ∀ slave, view slave.shell = view slave) :
      left.segment.slaves.map view = right.segment.slaves.map view := by
    have same := congrArg (·.segment.slaves.map view) twins.shown
    simpa only [MemoryEngine.veil, Segment.map_veil seen] using same
  have outputsEq := mapEq SimulatedSlave.outputBytes fun _ => rfl
  have inputsEq := mapEq SimulatedSlave.inputBytes fun _ => rfl
  rw [errorEq]
  split
  · exact Couples.throw _
  · rw [outputsEq, inputsEq]
    refine (Couples.set ?_).bind fun _ _ _ => Couples.pure rfl
    have segmentEq : left.segment.veil place = right.segment.veil place :=
      congrArg MemoryEngine.segment twins.shown
    exact ⟨by simp only [MemoryEngine.veil, segmentEq], twins.inside, twins.firstSound,
      twins.secondSound⟩

end Requests

section Contents

/-- What a request to the hidden slave sees of it. -/
theorem contained_slaveAt {faults : Fault → Prop} :
    Contained (Shows place size view count) faults (fun found => found.2.objects.length = count)
      (slaveAt place) := by
  intro engine shows
  obtain ⟨slave, found, sized⟩ := shows.slave
  rw [slaveAt_apply, found]
  exact .ok sized shows

theorem contained_upload (entry : EntryIndex) :
    Contained (Shows place size view count) (·.isCommunication) (fun _ => True)
      (upload place entry false) := by
  intro engine shows
  obtain ⟨slave, found, sized⟩ := shows.slave
  obtain ⟨segment, passed, slavesEq, sound, shown⟩ := Segment.passUpload_of_sound shows.sound
  have located : slaveAt place engine = .ok (place, slave) engine := by
    rw [slaveAt_apply, found]
  have waited : inSegment Segment.passUpload engine = .ok () { engine with segment } :=
    within_eq_ok_iff.mpr ⟨_, passed, rfl⟩
  rw [upload, bind_of_ok located]
  dsimp only
  rw [bind_of_ok waited, SimulatedSlave.answer, if_neg Bool.false_ne_true]
  have shellEq : (slave.nextItem entry).2.shell = slave.shell ∧
      (slave.nextItem entry).2.objects = slave.objects := by
    rw [SimulatedSlave.nextItem]
    split
    · exact ⟨rfl, rfl⟩
    · exact ⟨rfl, rfl⟩
  have inside := (List.getElem?_eq_some_iff.mp found).1
  have foundLater : segment.slaves[place]? = some slave := by rw [slavesEq, found]
  have kept : Shows place size view count
      { engine with segment := segment.setSlave place (slave.nextItem entry).2 } := by
    refine ⟨?_, ⟨(slave.nextItem entry).2, ?_, ?_⟩,
      ⟨List.length_set.trans sound.sized, sound.honest, sound.timely⟩⟩
    · rw [← shows.shown, MemoryEngine.veil, MemoryEngine.veil,
        Segment.veil_setSlave foundLater shellEq.1, shown]
    · exact List.getElem?_set_self (slavesEq ▸ inside)
    · rw [shellEq.2, sized]
  generalize slave.nextItem entry = answered at kept ⊢
  cases answered with
  | mk item after =>
      cases item with
      | data content => exact .ok trivial kept
      | missing => exact .error rfl kept
      | error error => exact .error rfl kept

theorem contained_objectList :
    Contained (Shows place size view count) (·.isCommunication)
      (fun indices => indices.length = count) (objectList place) := by
  refine contained_slaveAt.bind ?_
  rintro ⟨location, found⟩ sized
  dsimp only
  split
  · exact Contained.throw rfl
  · exact Contained.pure ((List.length_map _).trans sized)

theorem contained_objectAt {slave : SimulatedSlave} {item : Nat}
    (listed : item < slave.objects.length) :
    Contained (Shows place size view count) (·.isCommunication) (fun _ => True)
      (objectAt slave item) := by
  have nonneg : ¬ (item : Int) < 0 := by omega
  rw [objectAt, if_neg nonneg, Int.toNat_natCast, List.getElem?_eq_getElem listed]
  exact Contained.pure trivial

theorem contained_objectDescription {item : Nat} (listed : item < count) :
    Contained (Shows place size view count) (·.isCommunication) (fun _ => True)
      (objectDescription place item) := by
  refine contained_slaveAt.bind ?_
  rintro ⟨location, found⟩ sized
  dsimp only at sized ⊢
  split
  · exact Contained.throw rfl
  · refine (contained_objectAt (sized ▸ listed)).bind ?_
    intro object _
    exact Contained.pure trivial

theorem contained_entryList {item : Nat} (listed : item < count) :
    Contained (Shows place size view count) (·.isCommunication) (fun _ => True)
      (entryList place item) := by
  refine contained_slaveAt.bind ?_
  rintro ⟨location, found⟩ sized
  dsimp only at sized ⊢
  split
  · exact Contained.throw rfl
  · refine (contained_objectAt (sized ▸ listed)).bind ?_
    intro object _
    exact Contained.pure trivial

theorem contained_slaveInfo :
    Contained (Shows place size view count) never (fun _ => True) (slaveInfo place) := by
  refine contained_slaveAt.bind ?_
  intro located _
  exact Contained.pure trivial

end Contents

end MemoryEngine

end Fieldbus
