import Fieldbus.Proofs.Engine.MemoryImage
import Fieldbus.Proofs.Master.Images
import Fieldbus.Proofs.Master.Rest
import Fieldbus.Proofs.Master.Rounds

/-!
# Queued writes

Writes that are queued for a slave come into the image with the next cycle, after its exchange.
They make of the outputs of the slave what setting the values one after the other would have
made of them, and leave the outputs of the other slaves alone.
-/

namespace Fieldbus

namespace Master

open Fieldbus.Action Engine Engine.Delivers Engine.Ranged

variable {ε : Type}

/-- The writes to a slave make one region of another, one after the other. -/
def Rewrites (map : Option PdoMap) (slave : Int) :
    List (EntryIndex × Value) → (before after : Option Bytes) → Prop
  | [], before, after => after = before
  | write :: rest, before, after => ∃ found region changed, map = some found ∧
      before = some region ∧ found.write slave region write.1 write.2 = .ok changed ∧
        Rewrites map slave rest (some changed) after

theorem Rewrites.append {map : Option PdoMap} {slave : Int}
    {first second : List (EntryIndex × Value)} {before between after : Option Bytes}
    (earlier : Rewrites map slave first before between)
    (later : Rewrites map slave second between after) :
    Rewrites map slave (first ++ second) before after := by
  induction first generalizing before with
  | nil =>
      cases earlier
      exact later
  | cons write rest ih =>
      obtain ⟨found, region, changed, known, held, written, more⟩ := earlier
      exact ⟨found, region, changed, known, held, written, ih more⟩

/-- The writes that handles at some places have queued for a slave. -/
def queuedAt (master : Master ε) (places : List Nat) (slave : Int) : List (EntryIndex × Value) :=
  (places.filter (slaveOf master · = slave)).flatMap (queueOf master)

/-- The writes that registered handles have queued for a slave. -/
def queuedFor (master : Master ε) (slave : Int) : List (EntryIndex × Value) :=
  queuedAt master (registeredPlaces master) slave

theorem slaveOf_eq (master : Master ε) (place : Nat) :
    slaveOf master place = (master.roster[place]?.map Prod.fst).getD 0 := by
  simp [slaveOf, roster, Function.comp_def]

theorem queuedAt_cons (master : Master ε) (place : Nat) (rest : List Nat) (slave : Int) :
    queuedAt master (place :: rest) slave =
      (if slaveOf master place = slave then queueOf master place else []) ++
        queuedAt master rest slave := by
  by_cases own : slaveOf master place = slave
  · simp [queuedAt, own]
  · simp [queuedAt, own]

theorem queuedAt_congr {before after : Master ε} {places : List Nat}
    (same : ∀ place ∈ places, after.handles[place]? = before.handles[place]?) (slave : Int) :
    queuedAt after places slave = queuedAt before places slave := by
  induction places with
  | nil => rfl
  | cons place rest ih =>
      have placeSame := same place List.mem_cons_self
      have slaveEq : slaveOf after place = slaveOf before place := by
        rw [slaveOf, slaveOf, placeSame]
      rw [queuedAt_cons, queuedAt_cons, slaveEq, queueOf_congr placeSame,
        ih fun other member => same other (List.mem_cons_of_mem _ member)]

def wiring (master : Master ε) : Table Int PdoMap × ε :=
  (master.maps, master.engine)

instance : AllowsNotices (Keep (wiring (ε := ε))) where
  notices _ _ := rfl

instance : AllowsHandles (Keep (wiring (ε := ε))) where
  handles _ _ := rfl

theorem found_of_handle {place : Nat} {master after : Master ε} {found : Handle}
    (looked : handle place master = .ok found after) :
    master.handles[place]? = some found ∧ master = after := by
  rw [handle, bind_of_ok (get_apply master)] at looked
  cases holds : master.handles[place]? with
  | none =>
      rw [holds] at looked
      cases looked
  | some other =>
      rw [holds] at looked
      cases looked
      exact ⟨rfl, rfl⟩

section Outputs

variable [Engine ε] [Ranged ε] {master before between after : Master ε} {slave other : Int}

theorem unmoved_outputRange (slave : Int) (master : Master ε) :
    final (ask (Engine.outputRange slave) master) = master := by
  cases asked : ImageRange.ofSlave (outputs master.engine) slave with
  | ok range => rw [ask_outputRange_of_ok asked, final]
  | error fault => rw [ask_outputRange_of_error asked, final]

theorem unmoved_inputRange (slave : Int) (master : Master ε) :
    final (ask (Engine.inputRange slave) master) = master := by
  cases asked : ImageRange.ofSlave (inputs master.engine) slave with
  | ok range => rw [ask_inputRange_of_ok asked, final]
  | error fault => rw [ask_inputRange_of_error asked, final]

def outputsOf (slave : Int) (master : Master ε) : Option Bytes :=
  match ImageRange.ofSlave (outputs master.engine) slave with
  | .ok range => some (range.read (Engine.image master.engine))
  | .error _ => none

theorem outputsOf_of_ok {range : ImageRange}
    (asked : ImageRange.ofSlave (outputs master.engine) slave = .ok range) :
    outputsOf slave master = some (range.read (Engine.image master.engine)) := by
  rw [outputsOf, asked]

theorem exists_of_outputsOf {region : Bytes} (held : outputsOf slave master = some region) :
    ∃ range, ImageRange.ofSlave (outputs master.engine) slave = .ok range ∧
      range.read (Engine.image master.engine) = region := by
  rw [outputsOf] at held
  cases asked : ImageRange.ofSlave (outputs master.engine) slave with
  | ok range =>
      rw [asked] at held
      exact ⟨range, rfl, Option.some.inj held⟩
  | error fault =>
      rw [asked] at held
      cases held

theorem outputsOf_congr (outputsEq : outputs after.engine = outputs before.engine)
    (readEq : ∀ range ∈ outputs before.engine,
      range.read (Engine.image after.engine) = range.read (Engine.image before.engine))
    (slave : Int) : outputsOf slave after = outputsOf slave before := by
  rw [outputsOf, outputsOf, outputsEq]
  cases asked : ImageRange.ofSlave (outputs before.engine) slave with
  | error fault => rfl
  | ok range =>
      obtain ⟨position, _, found⟩ := ImageRange.ofSlave_eq_ok_iff.mp asked
      simp only [readEq range (List.mem_of_getElem? found)]

/-- Setting a value changes the outputs of its slave to what the map makes of them. -/
theorem Sets.outputsOf {entry : EntryIndex} {value : Value} {map : PdoMap} {range : ImageRange}
    {changed : Bytes} (sets : Sets slave entry value master map range changed)
    (mapped : Mapped master) :
    outputsOf slave (master.withImage (range.write (Engine.image master.engine) changed)) =
        some changed ∧
      ∀ other, other ≠ slave → Master.outputsOf other
          (master.withImage (range.write (Engine.image master.engine) changed)) =
        Master.outputsOf other master := by
  have laid := mapped.laidOut_of_known sets.known
  have inside := stop_le_of_ofSlave laid sets.asked
  have fits := sets.length_changed laid mapped.gapless
  refine ⟨?_, ?_⟩
  · have asked : ImageRange.ofSlave (outputs (master.withImage
        (range.write (Engine.image master.engine) changed)).engine) slave = .ok range := by
      rw [engine_withImage, outputs_setImage, sets.asked]
    rw [outputsOf_of_ok asked, engine_withImage, image_setImage,
      ImageRange.read_write inside fits]
  · intro other different
    rw [Master.outputsOf, Master.outputsOf, engine_withImage, outputs_setImage, image_setImage]
    cases otherAsked : ImageRange.ofSlave (outputs master.engine) other with
    | error fault => rfl
    | ok otherRange =>
        obtain ⟨position, rfl, found⟩ := ImageRange.ofSlave_eq_ok_iff.mp sets.asked
        obtain ⟨place, rfl, otherFound⟩ := ImageRange.ofSlave_eq_ok_iff.mp otherAsked
        have apart := laid.outputs_apart (by omega) found otherFound
        simp only [ImageRange.read_write_of_apart inside fits apart]

/-- What writes to slaves make of the outputs, and what they leave. -/
structure Applies (writesTo : Int → List (EntryIndex × Value)) (before after : Master ε) : Prop where
  maps : after.maps = before.maps
  received : received after.engine = received before.engine
  outputs : ∀ slave, Rewrites (before.maps.get? slave) slave (writesTo slave)
    (outputsOf slave before) (outputsOf slave after)

theorem Applies.trans {first second : Int → List (EntryIndex × Value)}
    (earlier : Applies first before between) (later : Applies second between after) :
    Applies (fun slave => first slave ++ second slave) before after where
  maps := later.maps.trans earlier.maps
  received := later.received.trans earlier.received
  outputs slave := by
    have next := later.outputs slave
    rw [earlier.maps] at next
    exact (earlier.outputs slave).append next

theorem outputsOf_of_wiring (kept : Keep wiring before after) (slave : Int) :
    outputsOf slave after = outputsOf slave before := by
  have engineEq : after.engine = before.engine := congrArg Prod.snd kept
  rw [outputsOf, outputsOf, engineEq]

theorem Applies.of_wiring (kept : Keep wiring before after) :
    Applies (fun _ => []) before after where
  maps := congrArg Prod.fst kept
  received := by rw [show after.engine = before.engine from congrArg Prod.snd kept]
  outputs := outputsOf_of_wiring kept

/-- What comes before and after writes may leave the maps and the engine alone. -/
theorem Applies.within {writesTo : Int → List (EntryIndex × Value)} {first last : Master ε}
    (applies : Applies writesTo before after) (opening : Keep wiring first before)
    (closing : Keep wiring after last) : Applies writesTo first last := by
  have whole := ((Applies.of_wiring opening).trans applies).trans (Applies.of_wiring closing)
  have same : (fun slave => ([] ++ writesTo slave) ++ []) = writesTo := by
    funext slave
    rw [List.nil_append, List.append_nil]
  rwa [same] at whole

/-- The writes that go to one slave only. -/
def writesTo (slave : Int) (writes : List (EntryIndex × Value)) (other : Int) :
    List (EntryIndex × Value) :=
  if slave = other then writes else []

theorem applies_setValue {entry : EntryIndex} {value : Value} (mapped : Mapped before)
    (set : setValue slave entry value before = .ok () after) :
    Applies (writesTo slave [(entry, value)]) before after := by
  obtain ⟨map, range, changed, sets, rfl⟩ := exists_of_setValue_ok set
  obtain ⟨ownEq, othersEq⟩ := sets.outputsOf mapped
  refine ⟨rfl, received_setImage _ _, ?_⟩
  intro other
  by_cases own : slave = other
  · subst own
    rw [writesTo, if_pos rfl]
    exact ⟨map, _, changed, sets.known, outputsOf_of_ok sets.asked, sets.written, ownEq⟩
  · rw [writesTo, if_neg own]
    exact othersEq other (Ne.symm own)

end Outputs

section Runs

variable [Engine ε] [LaysOut ε] {master before between after : Master ε} {slave : Int}
  {writes : List (EntryIndex × Value)}

theorem Mapped.of_ok {α : Type} {action : Action (Master ε) α} {result : α}
    (mapped : Mapped before) (moves : Moves (Preserve Mapped) action)
    (succeeded : action before = .ok result after) : Mapped after :=
  moves.of_ok succeeded mapped

theorem applies_applyWrites (mapped : Mapped before)
    (applied : applyWrites slave writes before = .ok () after) :
    Applies (writesTo slave writes) before after := by
  induction writes generalizing before with
  | nil =>
      cases applied
      have none : writesTo slave [] = fun _ => [] := by
        funext other
        simp [writesTo]
      rw [none]
      exact Applies.of_wiring rfl
  | cons write rest ih =>
      obtain ⟨_, between, set, more⟩ := bind_eq_ok_iff.mp applied
      have mappedBetween := mapped.of_ok (moves_setValue _ _ _) set
      have both := (applies_setValue mapped set).trans (ih mappedBetween more)
      have joined : writesTo slave (write :: rest) =
          fun other => writesTo slave [write] other ++ writesTo slave rest other := by
        funext other
        by_cases own : slave = other
        · simp [writesTo, own]
        · simp [writesTo, own]
      rw [joined]
      exact both

/-- Writes that rewrite the outputs of a slave can be applied. -/
theorem Rewrites.exists_applyWrites (mapped : Mapped before) {result : Option Bytes}
    (rewrites : Rewrites (before.maps.get? slave) slave writes (outputsOf slave before) result) :
    ∃ after, applyWrites slave writes before = .ok () after ∧ outputsOf slave after = result := by
  induction writes generalizing before with
  | nil => exact ⟨before, rfl, Eq.symm rewrites⟩
  | cons write rest ih =>
      obtain ⟨map, region, changed, known, held, written, more⟩ := rewrites
      obtain ⟨range, asked, readEq⟩ := exists_of_outputsOf held
      rw [← readEq] at written
      have sets : Sets slave write.1 write.2 before map range changed := ⟨known, asked, written⟩
      have set := sets.setValue
      have mappedBetween := mapped.of_ok (moves_setValue _ _ _) set
      rw [← (sets.outputsOf mapped).1] at more
      obtain ⟨after, applied, outputsEq⟩ := ih mappedBetween more
      exact ⟨after, (bind_of_ok set).trans applied, outputsEq⟩

theorem mapped_of_wiring (kept : Keep wiring before after) (mapped : Mapped before) :
    Mapped after where
  gapless := by
    rw [MapsGapless, show after.maps = before.maps from congrArg Prod.fst kept]
    exact mapped.gapless
  laidOut := by
    rw [show after.maps = before.maps from congrArg Prod.fst kept,
      show after.engine = before.engine from congrArg Prod.snd kept]
    exact mapped.laidOut

theorem keeps_refresh (place : Nat) : Moves (Keep (wiring (ε := ε))) (refresh place) := by
  have inputsKept (slave : Int) : Moves (Keep (wiring (ε := ε))) (ask (Engine.inputRange slave)) :=
    Moves.of_unmoved (unmoved_inputRange slave)
  have outputsKept (slave : Int) :
      Moves (Keep (wiring (ε := ε))) (ask (Engine.outputRange slave)) :=
    Moves.of_unmoved (unmoved_outputRange slave)
  refine Moves.bind (moves_handle place) ?_
  intro found
  refine Moves.bind ?_ ?_
  · exact moves_currentValues_of (moves_values_of (inputsKept _) (outputsKept _))
  · intro values
    exact moves_changeHandle _ _

omit [LaysOut ε] in
/-- An update empties the queue of its handle, applies what was in it and refreshes the handle. -/
theorem exists_of_updateHandle_ok {place : Nat}
    (updated : updateHandle place before = .ok () after) :
    ∃ found applied, before.handles[place]? = some found ∧
      applyWrites found.slave found.pending
        { before with handles := before.handles.modify place emptied } = .ok () applied ∧
      refresh place applied = .ok () after := by
  obtain ⟨_, applied, applying, refreshing⟩ := bind_eq_ok_iff.mp updated
  obtain ⟨found, _, looked, rest⟩ := bind_eq_ok_iff.mp applying
  obtain ⟨holds, rfl⟩ := found_of_handle looked
  obtain ⟨_, _, taking, writing⟩ := bind_eq_ok_iff.mp rest
  cases taking
  exact ⟨found, applied, holds, writing, refreshing⟩

omit [Engine ε] [LaysOut ε] in
theorem wiring_taken (place : Nat) (master : Master ε) :
    Keep wiring master { master with handles := master.handles.modify place emptied } :=
  rfl

theorem updateHandle_ok {place : Nat} (mapped : Mapped before)
    (updated : updateHandle place before = .ok () after) :
    Applies (writesTo (slaveOf before place) (queueOf before place)) before after ∧
      Emptied place before after := by
  obtain ⟨found, applied, holds, writing, refreshing⟩ := exists_of_updateHandle_ok updated
  have slaveEq : slaveOf before place = found.slave := by rw [slaveOf, holds]; rfl
  rw [slaveEq, queueOf_of_found holds]
  have taken := wiring_taken place before
  have finished : Keep wiring applied after := (keeps_refresh place).of_ok refreshing
  have others : Keep (apartFrom place) applied after :=
    (Round.apartFrom_finish .cycle place).of_ok refreshing
  have handlesKept : Keep Master.handles _ applied := (moves_applyWrites _ _).of_ok writing
  refine ⟨?_, ?_⟩
  · have applies := applies_applyWrites (mapped_of_wiring taken mapped) writing
    exact applies.within taken finished
  · have emptied := emptied_changeHandle place before
    exact (emptied.keep (apartFrom_congr handlesKept place)).keep others

/-- What updates of handles leave behind. -/
structure Drains (places : List Nat) (before after : Master ε) : Prop where
  applies : Applies (queuedAt before places) before after
  emptied : ∀ place ∈ places, queueOf after place = []
  others : ∀ place ∉ places, after.handles[place]? = before.handles[place]?

theorem drains_forPlaces {places : List Nat} (distinct : places.Nodup) (mapped : Mapped before)
    (updated : forPlaces updateHandle places before = .ok () after) :
    Drains places before after := by
  induction places generalizing before with
  | nil =>
      cases updated
      refine ⟨Applies.of_wiring rfl, ?_, fun _ _ => rfl⟩
      intro place member
      cases member
  | cons place rest ih =>
      obtain ⟨fresh, restDistinct⟩ := List.nodup_cons.mp distinct
      obtain ⟨_, between, first, more⟩ := bind_eq_ok_iff.mp updated
      obtain ⟨applies, empties⟩ := updateHandle_ok mapped first
      have mappedBetween := mapped.of_ok (moves_updateHandle place) first
      have drains := ih restDistinct mappedBetween more
      have kept : ∀ other ∈ rest, between.handles[other]? = before.handles[other]? := by
        intro other member
        apply empties.others
        rintro rfl
        exact fresh member
      refine ⟨?_, ?_, ?_⟩
      · have joined : queuedAt before (place :: rest) = fun slave =>
            writesTo (slaveOf before place) (queueOf before place) slave ++
              queuedAt between rest slave := by
          funext slave
          rw [queuedAt_cons, queuedAt_congr kept, writesTo]
        rw [joined]
        exact applies.trans drains.applies
      · intro other member
        rcases List.mem_cons.mp member with rfl | later
        · rw [queueOf_congr (drains.others other fresh)]
          exact empties.queue
        · exact drains.emptied other later
      · intro other outside
        obtain ⟨different, outsideRest⟩ := not_or.mp (List.mem_cons.not.mp outside)
        exact (drains.others other outsideRest).trans (empties.others other different)

section Cycle

variable {position : Nat} {wkc : Int}

/-- An exchange hands every slave its outputs and leaves them as they are. -/
theorem exchange_ok (laid : LaidOut before.engine)
    (exchanged : exchange before = .ok wkc after) :
    (∀ slave, outputsOf slave after = outputsOf slave before) ∧
      ∀ (position : Nat) region, outputsOf position before = some region → region ≠ [] →
        received after.engine position = region := by
  obtain ⟨timeout, sent, expected, answered, expects⟩ := exists_of_exchange_ok exchanged
  obtain ⟨outputsEq, _, _, readEq⟩ := (LaysOut.keepsOutputs_exchange laid answered).trans
    (LaysOut.keepsOutputs_expectedWkc expects)
  refine ⟨outputsOf_congr outputsEq readEq, ?_⟩
  intro position region held nonempty
  obtain ⟨range, asked, readEq⟩ := exists_of_outputsOf held
  obtain ⟨place, same, found⟩ := ImageRange.ofSlave_eq_ok_iff.mp asked
  have positionEq : position = place := by omega
  subst positionEq
  have holds : range.length ≠ 0 := by
    have lengthEq := ImageRange.length_read (laid.outputs_stop_le found)
    rw [readEq] at lengthEq
    intro zero
    exact nonempty (List.length_eq_zero_iff.mp (lengthEq.trans zero))
  rw [received_exchange exchanged, laid.serves found holds, ← readEq]
  rfl

/-- What a cycle makes of a master: it sends the outputs, and then the queued writes come into
them. -/
structure Cycled (before after : Master ε) : Prop where
  sent : ∀ (position : Nat) region, outputsOf position before = some region → region ≠ [] →
    received after.engine position = region
  outputs : ∀ slave, Rewrites (before.maps.get? slave) slave (queuedFor before slave)
    (outputsOf slave before) (outputsOf slave after)
  emptied : ∀ place ∈ registeredPlaces before, queueOf after place = []

omit [LaysOut ε] in
/-- A cycle that succeeds is an exchange and then an update of each registered handle. -/
theorem exists_of_cycle_ok (cycled : cycle before = .ok wkc after) :
    ∃ exchanged, exchange before = .ok wkc exchanged ∧ exchanged.handles = before.handles ∧
      forPlaces updateHandle (registeredPlaces before) exchanged = .ok () after := by
  obtain ⟨_, exchanged, exchanging, rest⟩ := bind_eq_ok_iff.mp cycled
  obtain ⟨_, _, got, rest⟩ := bind_eq_ok_iff.mp rest
  cases got
  obtain ⟨_, updated, updating, rest⟩ := bind_eq_ok_iff.mp rest
  cases rest
  have handlesEq : exchanged.handles = before.handles := by
    have kept : Keep Master.handles before exchanged := handles_exchange.of_ok exchanging
    exact kept
  rw [registeredPlaces_congr handlesEq] at updating
  exact ⟨exchanged, exchanging, handlesEq, updating⟩

theorem cycled_of_cycle (mapped : Mapped before) (laid : LaidOut before.engine)
    (cycled : cycle before = .ok wkc after) : Cycled before after := by
  obtain ⟨exchanged, exchanging, handlesEq, updating⟩ := exists_of_cycle_ok cycled
  obtain ⟨outputsEq, sends⟩ := exchange_ok laid exchanging
  have mapsEq : exchanged.maps = before.maps := by
    have kept : Keep caches before exchanged := moves_exchange.of_ok exchanging
    exact congrArg Caches.maps kept
  have mappedExchanged := mapped.of_ok moves_exchange exchanging
  have drains := drains_forPlaces ((registeredPlaces_sorted before).imp Nat.ne_of_lt)
    mappedExchanged updating
  have queuedEq (slave : Int) :
      queuedAt exchanged (registeredPlaces before) slave = queuedFor before slave := by
    apply queuedAt_congr
    intro place _
    rw [handlesEq]
  refine ⟨?_, ?_, ?_⟩
  · rw [drains.applies.received]
    exact sends
  · intro slave
    have rewrites := drains.applies.outputs slave
    rwa [queuedEq, mapsEq, outputsEq] at rewrites
  · exact drains.emptied

end Cycle

section Queue

variable {place : Nat} {loaded : Master ε}

def queueAll (place : Nat) : List (EntryIndex × Value) → Action (Master ε) Unit
  | [] => pure ()
  | (entry, value) :: rest => do
      queue place entry value
      queueAll place rest

/-- What queueing writes for a handle leaves behind. -/
structure Enqueued (place : Nat) (writes : List (EntryIndex × Value))
    (before after : Master ε) : Prop where
  wiring : Keep wiring before after
  roster : after.roster = before.roster
  queue : queueOf after place = queueOf before place ++ writes
  others : ∀ other, other ≠ place → after.handles[other]? = before.handles[other]?

omit [Engine ε] [LaysOut ε] in
theorem enqueued_queue {entry : EntryIndex} {value : Value}
    (accepted : queue place entry value before = .ok () after) :
    Enqueued place [(entry, value)] before after := by
  obtain ⟨found, same, looked, rest⟩ := bind_eq_ok_iff.mp accepted
  obtain ⟨holds, rfl⟩ := found_of_handle looked
  have changed : changeHandle place (fun handle =>
      { handle with pending := handle.pending ++ [(entry, value)] }) before = .ok () after := by
    obtain ⟨_, _, got, rest⟩ := bind_eq_ok_iff.mp rest
    cases got
    split at rest
    · obtain ⟨_, checked, checking, rest⟩ := bind_eq_ok_iff.mp rest
      have kept : Keep id before checked := (moves_checkValue _ _ _).of_ok checking
      cases kept
      exact rest
    · exact rest
  cases changed
  refine ⟨rfl, ?_, ?_, ?_⟩
  · apply List.ext_getElem?
    intro index
    simp only [roster, List.getElem?_map, List.getElem?_modify]
    cases before.handles[index]? with
    | none => rfl
    | some handle => by_cases same : place = index <;> simp [same]
  · simp [queueOf, holds]
  · intro other different
    simp [Ne.symm different]

omit [Engine ε] [LaysOut ε] in
theorem Enqueued.trans {first second : List (EntryIndex × Value)}
    (earlier : Enqueued place first before between)
    (later : Enqueued place second between after) :
    Enqueued place (first ++ second) before after where
  wiring := IsTrans.trans _ _ _ earlier.wiring later.wiring
  roster := later.roster.trans earlier.roster
  queue := by rw [later.queue, earlier.queue, List.append_assoc]
  others other different := (later.others other different).trans (earlier.others other different)

omit [Engine ε] [LaysOut ε] in
theorem enqueued_queueAll (accepted : queueAll place writes before = .ok () after) :
    Enqueued place writes before after := by
  induction writes generalizing before with
  | nil =>
      cases accepted
      exact ⟨rfl, rfl, (List.append_nil _).symm, fun _ _ => rfl⟩
  | cons write rest ih =>
      obtain ⟨_, between, first, more⟩ := bind_eq_ok_iff.mp accepted
      exact (enqueued_queue first).trans (ih more)

end Queue

section Refinement

variable {place : Nat} {loaded : Master ε} {map : PdoMap} {wkc : Int}

/-- What a cycle makes of the writes that were queued for the handle at a place, told by what
setting the values directly makes of the master before they were queued. -/
structure Drained (place : Nat) (slave : Int) (writes : List (EntryIndex × Value))
    (master after : Master ε) : Prop where
  /-- The exchange of the cycle carries the outputs of before. -/
  sent : ∀ (position : Nat) region, outputsOf position master = some region → region ≠ [] →
    received after.engine position = region
  own : ∃ direct, applyWrites slave writes master = .ok () direct ∧
    outputsOf slave after = outputsOf slave direct
  emptied : queueOf after place = []
  /-- The next exchange carries the new outputs, unless something else changes them first. -/
  next : ∀ commands : List Command, (∀ command ∈ commands, command.configures = false) →
    outputsOf slave (Command.performAll commands after) = outputsOf slave after →
      ∀ wkc sent region, exchange (Command.performAll commands after) = .ok wkc sent →
        outputsOf slave after = some region → region ≠ [] →
          received sent.engine slave.toNat = region
  /-- The outputs of the other slaves are what their own queues make of them. -/
  others : ∀ other, other ≠ slave → ∃ direct,
    applyWrites other (queuedFor master other) master = .ok () direct ∧
      outputsOf other after = outputsOf other direct

theorem received_of_exchange (laid : LaidOut before.engine) {region : Bytes}
    (exchanged : exchange before = .ok wkc after) (held : outputsOf slave before = some region)
    (nonempty : region ≠ []) : received after.engine slave.toNat = region := by
  obtain ⟨range, asked, _⟩ := exists_of_outputsOf held
  obtain ⟨position, rfl, _⟩ := ImageRange.ofSlave_eq_ok_iff.mp asked
  exact (exchange_ok laid exchanged).2 position region held nonempty

/-- The image of a master with a map stays laid out until it is configured again. -/
theorem laidOut_performAll {commands : List Command} (mapped : Mapped before)
    (known : before.maps.get? slave = some map)
    (plain : ∀ command ∈ commands, command.configures = false) :
    LaidOut (Command.performAll commands before).engine := by
  have mappedKept : Preserve Mapped before (Command.performAll commands before) :=
    performAll_of_not_configures plain before
  have cachesKept : Keep caches before (Command.performAll commands before) :=
    performAll_of_not_configures plain before
  apply (mappedKept mapped).laidOut_of_known
  rw [show (Command.performAll commands before).maps = before.maps from
    congrArg Caches.maps cachesKept]
  exact known

omit [Engine ε] [LaysOut ε] in
theorem Enqueued.queuedFor_eq (enqueued : Enqueued place writes before after)
    (alone : (registeredPlaces before).filter (slaveOf before · = slave) = [place])
    (empty : queueOf before place = []) (other : Int) :
    queuedFor after other = if other = slave then writes else queuedFor before other := by
  have placesEq : registeredPlaces after = registeredPlaces before := by
    rw [registeredPlaces_eq, registeredPlaces_eq, enqueued.roster]
  have slavesEq : slaveOf after = slaveOf before := by
    funext index
    rw [slaveOf_eq, slaveOf_eq, enqueued.roster]
  rw [queuedFor, queuedAt, placesEq, slavesEq]
  by_cases own : other = slave
  · rw [if_pos own, own, alone, List.flatMap_singleton, enqueued.queue, empty, List.nil_append]
  · have member : place ∈ (registeredPlaces before).filter (slaveOf before · = slave) := by
      rw [alone]
      exact List.mem_singleton_self place
    have placeSlave : slaveOf before place = slave := by simpa using (List.mem_filter.mp member).2
    rw [if_neg own, queuedFor, queuedAt]
    apply List.flatMap_congr
    intro index found
    have slaveEq : slaveOf before index = other := by simpa using (List.mem_filter.mp found).2
    apply queueOf_congr
    apply enqueued.others
    rintro rfl
    exact own (slaveEq.symm.trans placeSlave)

/-- The next cycle does with the writes that were queued for a slave what setting the values
directly does, if the slave has one handle and its queue was empty. -/
theorem drained_of_cycle (reachable : Reachable master)
    (known : master.maps.get? slave = some map)
    (alone : (registeredPlaces master).filter (slaveOf master · = slave) = [place])
    (empty : queueOf master place = []) (accepted : queueAll place writes master = .ok () loaded)
    (cycled : cycle loaded = .ok wkc after) : Drained place slave writes master after := by
  have mapped := reachable.mapped
  have enqueued := enqueued_queueAll accepted
  have mapsEq : loaded.maps = master.maps := congrArg Prod.fst enqueued.wiring
  have mappedLoaded := mapped_of_wiring enqueued.wiring mapped
  have knownLoaded : loaded.maps.get? slave = some map := by rwa [mapsEq]
  have drained := cycled_of_cycle mappedLoaded (mappedLoaded.laidOut_of_known knownLoaded) cycled
  have outputsEq := outputsOf_of_wiring enqueued.wiring
  have queuedEq := enqueued.queuedFor_eq alone empty
  have direct (other : Int) : ∃ direct,
      applyWrites other (queuedFor loaded other) master = .ok () direct ∧
        outputsOf other direct = outputsOf other after := by
    have rewrites := drained.outputs other
    rw [mapsEq, outputsEq] at rewrites
    exact rewrites.exists_applyWrites mapped
  refine ⟨?_, ?_, ?_, ?_, ?_⟩
  · intro position region held nonempty
    rw [← outputsEq] at held
    exact drained.sent position region held nonempty
  · obtain ⟨result, applied, same⟩ := direct slave
    rw [queuedEq, if_pos rfl] at applied
    exact ⟨result, applied, same.symm⟩
  · apply drained.emptied
    have registered : place ∈ (registeredPlaces master).filter (slaveOf master · = slave) := by
      rw [alone]
      exact List.mem_singleton_self place
    rw [registeredPlaces_eq, enqueued.roster, ← registeredPlaces_eq]
    exact (List.mem_filter.mp registered).1
  · intro commands plain same wkc sent region exchanged held nonempty
    have cachesKept : Keep caches loaded after := moves_cycle.of_ok cycled
    have knownAfter : after.maps.get? slave = some map := by
      rwa [show after.maps = loaded.maps from congrArg Caches.maps cachesKept]
    have laid := laidOut_performAll (mappedLoaded.of_ok moves_cycle cycled) knownAfter plain
    rw [← same] at held
    exact received_of_exchange laid exchanged held nonempty
  · intro other different
    obtain ⟨result, applied, same⟩ := direct other
    rw [queuedEq, if_neg different] at applied
    exact ⟨result, applied, same.symm⟩

end Refinement

end Runs

/-- A master of two slaves with one byte of outputs and a handle each, after the bus was opened
and a write was queued for the second one. -/
def twinMaster : Master MemoryEngine :=
  Command.performAll
    [.register 0 false, .register 1 false, .openBus false, .queue 1 ⟨0x7000, 1⟩ ⟨.u8, .int 5⟩]
    (idle BusConfig.defaults none
      (MemoryEngine.ofSegment { Segment.bare with slaves := [dimmerSlave, dimmerSlave] }))

def twinWrites : List (EntryIndex × Value) :=
  [(⟨0x7000, 1⟩, ⟨.u8, .int 3⟩), (⟨0x7000, 1⟩, ⟨.u8, .int 7⟩)]

/-- Two writes of one entry that were queued for the first slave: the cycle sends the outputs of
before, and then the last write has won. -/
theorem drained_of_cycle_twinMaster :
    ∃ loaded wkc after, queueAll 0 twinWrites twinMaster = .ok () loaded ∧
      cycle loaded = .ok wkc after ∧ Drained 0 0 twinWrites twinMaster after ∧
      received after.engine 0 = [0] ∧ outputsOf 0 after = some [7] ∧
      outputsOf 1 after = some [5] := by
  have reachable : Reachable twinMaster := (Reachable.idle _ _ _).performAll _
  have resolved : (twinMaster.maps.get? 0).isSome = true := by decide +kernel
  have accepted : result? (queueAll 0 twinWrites twinMaster) = some () := by decide +kernel
  have cycles : result? (cycle (final (queueAll 0 twinWrites twinMaster))) = some 3 := by
    decide +kernel
  have seen : received (final (cycle (final (queueAll 0 twinWrites twinMaster)))).engine 0 = [0] ∧
      outputsOf 0 (final (cycle (final (queueAll 0 twinWrites twinMaster)))) = some [7] ∧
      outputsOf 1 (final (cycle (final (queueAll 0 twinWrites twinMaster)))) = some [5] := by
    decide +kernel
  obtain ⟨map, known⟩ := Option.isSome_iff_exists.mp resolved
  obtain ⟨loaded, loading⟩ := exists_ok_of_result? accepted
  have loadedEq : final (queueAll 0 twinWrites twinMaster) = loaded := by rw [loading, final]
  rw [loadedEq] at cycles seen
  obtain ⟨after, cycled⟩ := exists_ok_of_result? cycles
  rw [cycled] at seen
  have drained := drained_of_cycle reachable known (by decide +kernel) (by decide +kernel) loading
    cycled
  exact ⟨loaded, 3, after, loading, cycled, drained, seen⟩

end Master

end Fieldbus
