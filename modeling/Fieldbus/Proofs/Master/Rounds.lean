import Fieldbus.Engine.Recorded
import Fieldbus.Proofs.Master.Closing
import Fieldbus.Proofs.Master.Reachable
import Fieldbus.Proofs.Pdo.Resolve
import Fieldbus.Segment.MemoryEngine

/-!
# Rounds over the handles

A cycle goes round the registered handles, and so does the seeding of the outputs before the
operational state: each handle in turn has its queue emptied and its writes applied.  A round is
told by its deeds.  The main statement says what one refused write costs the others: the round
ends there, with what is left of the queue dropped and the later handles not attended to.
-/

namespace Fieldbus

namespace Recorded

open Fieldbus.Action

variable {φ σ κ α β : Type}

/-- The outcome of a recording action without the record. -/
def unrecorded : EStateM.Result φ (Recorded σ κ) α → EStateM.Result φ σ α
  | .ok result after => .ok result after.inner
  | .error fault after => .error fault after.inner

/-- An action does what a plain one does, and keeps a record. -/
def Records (recording : EStateM φ (Recorded σ κ) α) (plain : EStateM φ σ α) : Prop :=
  ∀ recorded, unrecorded (recording recorded) = plain recorded.inner

theorem quietly_of_ok {plain : EStateM φ σ α} {recorded : Recorded σ κ} {result : α} {after : σ}
    (succeeded : plain recorded.inner = .ok result after) :
    quietly plain recorded = .ok result { recorded with inner := after } :=
  within_eq_ok_iff.mpr ⟨after, succeeded, rfl⟩

theorem quietly_of_error {plain : EStateM φ σ α} {recorded : Recorded σ κ} {fault : φ} {after : σ}
    (failed : plain recorded.inner = .error fault after) :
    quietly plain recorded = .error fault { recorded with inner := after } :=
  within_eq_error_iff.mpr ⟨after, failed, rfl⟩

theorem Records.quietly (plain : EStateM φ σ α) :
    Records (Recorded.quietly plain : EStateM φ (Recorded σ κ) α) plain := by
  intro recorded
  cases outcome : plain recorded.inner with
  | ok result inner => rw [quietly_of_ok outcome, unrecorded]
  | error fault inner => rw [quietly_of_error outcome, unrecorded]

theorem Records.bind {recording : EStateM φ (Recorded σ κ) α} {plain : EStateM φ σ α}
    {recordingNext : α → EStateM φ (Recorded σ κ) β} {plainNext : α → EStateM φ σ β}
    (first : Records recording plain)
    (second : ∀ value, Records (recordingNext value) (plainNext value)) :
    Records (recording >>= recordingNext) (plain >>= plainNext) := by
  intro recorded
  have same := first recorded
  cases outcome : recording recorded with
  | ok value between =>
      rw [outcome] at same
      rw [bind_of_ok outcome, bind_of_ok same.symm]
      exact second value between
  | error fault between =>
      rw [outcome] at same
      rw [bind_of_error outcome, bind_of_error same.symm]
      rfl

end Recorded

namespace Master

open Fieldbus.Action Recorded

variable {ε : Type}

/-- What a round does.  A write is told by the place of its handle and by its position in the
queue. -/
inductive Deed where
  | applied (place position : Nat)
  | refused (place position : Nat)
  /-- The round is done with a handle. -/
  | attended (place : Nat)
  deriving DecidableEq, Repr

/-- The two rounds over the handles. -/
inductive Round where
  | cycle
  | seeding

def noteDeed (deed : Deed) : Action (Recorded (Master ε) Deed) Unit :=
  modify (·.note deed)

def queueOf (master : Master ε) (place : Nat) : List (EntryIndex × Value) :=
  (master.handles[place]?.map Handle.pending).getD []

def slaveOf (master : Master ε) (place : Nat) : Int :=
  (master.handles[place]?.map Handle.slave).getD 0

def emptied (handle : Handle) : Handle :=
  { handle with pending := [] }

/-- All handles but the one at a place, and the queue of that one. -/
def apartFrom (place : Nat) (master : Master ε) :
    (Nat → Option Handle) × List (EntryIndex × Value) :=
  (fun other => if other = place then none else master.handles[other]?, queueOf master place)

/-- Only the handle at a place has changed, and its queue is empty. -/
structure Emptied (place : Nat) (before after : Master ε) : Prop where
  others : ∀ other, other ≠ place → after.handles[other]? = before.handles[other]?
  queue : queueOf after place = []

theorem Emptied.keep {place : Nat} {before between after : Master ε}
    (emptied : Emptied place before between) (kept : Keep (apartFrom place) between after) :
    Emptied place before after := by
  have handlesEq := congrArg Prod.fst kept
  have queueEq : queueOf after place = queueOf between place := congrArg Prod.snd kept
  refine ⟨?_, queueEq.trans emptied.queue⟩
  intro other different
  have same := congrFun handlesEq other
  simp only [apartFrom, if_neg different] at same
  exact same.trans (emptied.others other different)

theorem queueOf_of_found {place : Nat} {master : Master ε} {found : Handle}
    (holds : master.handles[place]? = some found) : queueOf master place = found.pending := by
  rw [queueOf, holds]
  rfl

theorem queueOf_congr {before after : Master ε} {place : Nat}
    (same : after.handles[place]? = before.handles[place]?) :
    queueOf after place = queueOf before place := by
  rw [queueOf, queueOf, same]

theorem apartFrom_congr {before after : Master ε} (same : after.handles = before.handles)
    (place : Nat) : Keep (apartFrom place) before after := by
  simp only [Keep, apartFrom, queueOf, same]

instance (place : Nat) : AllowsSession (Keep (apartFrom (ε := ε) place)) where
  session _ _ := rfl

theorem emptied_changeHandle (place : Nat) (master : Master ε) :
    Emptied place master { master with handles := master.handles.modify place emptied } := by
  refine ⟨?_, ?_⟩
  · intro other different
    rw [List.getElem?_modify]
    cases master.handles[other]? with
    | none => rfl
    | some found => simp [Ne.symm different]
  · rw [queueOf]
    simp only [List.getElem?_modify, if_true]
    cases master.handles[place]? with
    | none => rfl
    | some found => rfl

instance : AllowsSession (Keep (Master.handles (ε := ε))) where
  session _ _ := rfl

instance : AllowsCounters (Keep (Master.handles (ε := ε))) where
  lastWkc _ _ := rfl
  okCount _ _ := rfl
  errorCount _ _ := rfl

variable [Engine ε]

theorem handles_exchange : Moves (Keep (Master.handles (ε := ε))) exchange :=
  moves_exchange_of (fun _ => moves_ask _) (moves_ask _)

/-- Refresh the values of a handle and let its observer count them. -/
def refresh (place : Nat) : Action (Master ε) Unit := do
  let values ← currentValues (← handle place).slave
  changeHandle place fun handle =>
    { handle with values, observed := handle.observed.map (· ++ [values.length]) }

namespace Round

/-- What comes before the handles: the exchange of a cycle, or the safe-operational state. -/
def prelude : Round → Action (Master ε) Unit
  | cycle => do let _ ← exchange
  | seeding => do
      reach .safeOp
      report .info "Reached SAFE-OP state"

/-- What is done for a handle once its writes are applied. -/
def finish : Round → Nat → Action (Master ε) Unit
  | cycle => refresh
  | seeding => fun _ => pure ()

def attend (round : Round) (place : Nat) : Action (Master ε) Unit := do
  applyPending place
  round.finish place

/-- Carry out a round and drop its result. -/
def run : Round → Action (Master ε) Unit
  | cycle => do let _ ← Master.cycle
  | seeding => seed

theorem run_eq (round : Round) :
    round.run (ε := ε) = (do
      round.prelude
      forPlaces round.attend (registeredPlaces (← get))) := by
  cases round with
  | cycle =>
      have attends : attend (ε := ε) cycle = updateHandle := rfl
      simp only [run, prelude, attends, Master.cycle, bind_assoc, pure_bind, bind_pure_unit]
  | seeding =>
      have attends : attend (ε := ε) seeding = applyPending := by
        funext place
        exact bind_pure_unit
      simp only [run, prelude, attends, seed, bind_assoc]

theorem handles_prelude (round : Round) :
    Moves (Keep (Master.handles (ε := ε))) round.prelude := by
  cases round with
  | cycle =>
      exact Moves.bind handles_exchange fun _ => Moves.pure ()
  | seeding =>
      refine Moves.bind (moves_reach _) ?_
      intro _
      exact moves_report _ _

end Round

section Noted

/-- Set a value and note whether it was applied or refused. -/
def notedWrite (place position : Nat) (slave : Int) (write : EntryIndex × Value) :
    Action (Recorded (Master ε) Deed) Unit := do
  Action.catching (fun _ => true) (quietly (setValue slave write.1 write.2)) fun fault => do
    noteDeed (.refused place position)
    throw fault
  noteDeed (.applied place position)

def notedWrites (place : Nat) (slave : Int) : (position : Nat) → List (EntryIndex × Value) →
    Action (Recorded (Master ε) Deed) Unit
  | _, [] => pure ()
  | position, write :: rest => do
      notedWrite place position slave write
      notedWrites place slave (position + 1) rest

namespace Round

def notedAttend (round : Round) (place : Nat) : Action (Recorded (Master ε) Deed) Unit := do
  let found ← quietly (handle place)
  quietly (changeHandle place emptied)
  notedWrites place found.slave 0 found.pending
  quietly (round.finish place)
  noteDeed (.attended place)

def notedAll (round : Round) : List Nat → Action (Recorded (Master ε) Deed) Unit
  | [] => pure ()
  | place :: rest => do
      round.notedAttend place
      round.notedAll rest

/-- A round that notes its deeds. -/
def noted (round : Round) : Action (Recorded (Master ε) Deed) Unit := do
  quietly round.prelude
  let master ← quietly get
  round.notedAll (registeredPlaces master)

def deeds (round : Round) (master : Master ε) : List Deed :=
  (final (round.noted ⟨master, #[]⟩)).calls.toList

end Round

variable {recorded : Recorded (Master ε) Deed} {place position : Nat} {slave : Int}
  {write : EntryIndex × Value}

theorem notedWrite_of_ok {after : Master ε}
    (applied : setValue slave write.1 write.2 recorded.inner = .ok () after) :
    notedWrite place position slave write recorded =
      .ok () ⟨after, recorded.calls.push (.applied place position)⟩ := by
  rw [notedWrite, bind_of_ok (catching_of_ok (quietly_of_ok applied))]
  rfl

theorem notedWrite_of_error {after : Master ε} {fault : Fault}
    (refused : setValue slave write.1 write.2 recorded.inner = .error fault after) :
    notedWrite place position slave write recorded =
      .error fault ⟨after, recorded.calls.push (.refused place position)⟩ := by
  exact bind_of_error (catching_of_caught (quietly_of_error refused) rfl)

theorem records_notedWrite (place position : Nat) (slave : Int) (write : EntryIndex × Value) :
    Records (notedWrite (ε := ε) place position slave write)
      (setValue slave write.1 write.2) := by
  intro recorded
  cases outcome : setValue slave write.1 write.2 recorded.inner with
  | ok _ after => rw [notedWrite_of_ok outcome, unrecorded]
  | error fault after => rw [notedWrite_of_error outcome, unrecorded]

theorem records_notedWrites (place : Nat) (slave : Int) (position : Nat)
    (writes : List (EntryIndex × Value)) :
    Records (notedWrites (ε := ε) place slave position writes) (applyWrites slave writes) := by
  induction writes generalizing position with
  | nil =>
      intro recorded
      rfl
  | cons write rest ih =>
      refine Records.bind (records_notedWrite place position slave write) ?_
      intro _
      exact ih (position + 1)

theorem Round.records_notedAttend (round : Round) (place : Nat) :
    Records (round.notedAttend (ε := ε) place) (round.attend place) := by
  have noting : Records (noteDeed (ε := ε) (.attended place)) (pure ()) := fun _ => rfl
  have finishing : Records (do
      quietly (round.finish (ε := ε) place)
      noteDeed (.attended place)) (do
      round.finish place
      pure ()) := by
    refine Records.bind (Records.quietly _) ?_
    intro _
    exact noting
  rw [bind_pure_unit] at finishing
  rw [Round.attend, applyPending, bind_assoc]
  refine Records.bind (Records.quietly _) ?_
  intro found
  rw [bind_assoc]
  refine Records.bind (Records.quietly _) ?_
  intro _
  refine Records.bind (records_notedWrites place found.slave 0 found.pending) ?_
  intro _
  exact finishing

/-- Noting its deeds does not change what a round does. -/
theorem Round.records_noted (round : Round) : Records (round.noted (ε := ε)) round.run := by
  have all (places : List Nat) :
      Records (round.notedAll (ε := ε) places) (forPlaces round.attend places) := by
    induction places with
    | nil =>
        intro recorded
        rfl
    | cons place rest ih =>
        refine Records.bind (round.records_notedAttend place) ?_
        intro _
        exact ih
  rw [Round.run_eq]
  refine Records.bind (Records.quietly _) ?_
  intro _
  refine Records.bind (Records.quietly _) ?_
  intro master
  exact all (registeredPlaces master)

end Noted

section Deeds

variable {recorded : Recorded (Master ε) Deed} {place position : Nat}

/-- The deeds that apply the first writes of a queue. -/
def applications (place count : Nat) : List Deed :=
  (List.range count).map (Deed.applied place)

/-- The deeds for a handle whose queue was applied. -/
def service (master : Master ε) (place : Nat) : List Deed :=
  applications place (queueOf master place).length ++ [.attended place]

theorem applications_succ (place count : Nat) :
    applications place (count + 1) = applications place count ++ [.applied place count] := by
  simp [applications, List.range_succ]

theorem handles_setValue {slave : Int} {write : EntryIndex × Value} {master after : Master ε}
    (applied : setValue slave write.1 write.2 master = .ok () after) :
    after.handles = master.handles := by
  have kept : Keep Master.handles master after := (moves_setValue _ _ _).of_ok applied
  exact kept

/-- Writes are applied up to the first one that is refused. -/
theorem notedWrites_cases (place : Nat) (slave : Int) (before : List Deed)
    (writes : List (EntryIndex × Value)) (recorded : Recorded (Master ε) Deed) (done : Nat)
    (calls : recorded.calls.toList = before ++ applications place done) :
    (∃ after, notedWrites place slave done writes recorded = .ok () after ∧
      after.inner.handles = recorded.inner.handles ∧
      after.calls.toList = before ++ applications place (done + writes.length)) ∨
    ∃ count fault after, notedWrites place slave done writes recorded = .error fault after ∧
      count < done + writes.length ∧
      after.inner.handles = recorded.inner.handles ∧
      after.calls.toList = before ++ applications place count ++ [.refused place count] := by
  induction writes generalizing recorded done with
  | nil => exact Or.inl ⟨recorded, rfl, rfl, calls⟩
  | cons write rest ih =>
      cases outcome : setValue slave write.1 write.2 recorded.inner with
      | error fault after =>
          have kept : Keep Master.handles recorded.inner after :=
            (moves_setValue _ _ _).of_error outcome
          have refused : notedWrite place done slave write recorded =
              .error fault ⟨after, recorded.calls.push (.refused place done)⟩ :=
            notedWrite_of_error outcome
          have log : (recorded.calls.push (.refused place done)).toList =
              before ++ applications place done ++ [.refused place done] := by
            rw [Array.toList_push, calls]
          refine Or.inr ⟨done, fault, _, bind_of_error refused, ?_, kept, log⟩
          simp
      | ok _ after =>
          have kept := handles_setValue outcome
          have applied : notedWrite place done slave write recorded =
              .ok () ⟨after, recorded.calls.push (.applied place done)⟩ := notedWrite_of_ok outcome
          have log : (recorded.calls.push (.applied place done)).toList =
              before ++ applications place (done + 1) := by
            rw [Array.toList_push, calls, applications_succ, List.append_assoc]
          have length : done + (write :: rest).length = done + 1 + rest.length := by
            simp only [List.length_cons]
            omega
          have more := ih ⟨after, recorded.calls.push (.applied place done)⟩ (done + 1) log
          rw [notedWrites, bind_of_ok applied, length]
          simpa only [kept] using more

omit [Engine ε] in
theorem apartFrom_changeHandle (place : Nat) {change : Handle → Handle}
    (keeps : ∀ handle, (change handle).pending = handle.pending) :
    Moves (Keep (apartFrom (ε := ε) place)) (changeHandle place change) := by
  apply Moves.modify
  intro master
  simp only [Keep, apartFrom, Prod.mk.injEq]
  refine ⟨?_, ?_⟩
  · funext other
    by_cases same : other = place
    · simp [same]
    · simp [same, Ne.symm same]
  · simp only [queueOf, List.getElem?_modify, if_true]
    cases master.handles[place]? with
    | none => rfl
    | some found => simp [keeps]

/-- What is done for a handle in the end changes no queue and no other handle. -/
theorem Round.apartFrom_finish (round : Round) (place : Nat) :
    Moves (Keep (apartFrom (ε := ε) place)) (round.finish place) := by
  cases round with
  | seeding => exact Moves.pure ()
  | cycle =>
      refine Moves.bind (moves_handle place) ?_
      intro found
      refine Moves.bind (moves_currentValues _) ?_
      intro values
      apply apartFrom_changeHandle
      intro _
      rfl

/-- How far a round comes with the handle at a place: it is done with it, or stops at a write
that is refused, or stops after all writes are applied. -/
theorem Round.notedAttend_cases (round : Round) {found : Handle}
    (holds : recorded.inner.handles[place]? = some found) :
    Emptied place recorded.inner (final (round.notedAttend place recorded)).inner ∧
      ((∃ after, round.notedAttend place recorded = .ok () after ∧
          after.calls.toList = recorded.calls.toList ++ service recorded.inner place) ∨
        (∃ count fault after, round.notedAttend place recorded = .error fault after ∧
          count < (queueOf recorded.inner place).length ∧
          after.calls.toList =
            recorded.calls.toList ++ applications place count ++ [.refused place count]) ∨
        ∃ fault after, round.notedAttend place recorded = .error fault after ∧
          after.calls.toList = recorded.calls.toList ++
            applications place (queueOf recorded.inner place).length) := by
  have queueEq := queueOf_of_found holds
  let taken : Recorded (Master ε) Deed := { recorded with inner :=
    { recorded.inner with handles := recorded.inner.handles.modify place emptied } }
  have look : quietly (handle place) recorded = .ok found recorded :=
    quietly_of_ok (handle_of_found holds)
  have take : quietly (changeHandle place emptied) recorded = .ok () taken := rfl
  have empties : Emptied place recorded.inner taken.inner := emptied_changeHandle place recorded.inner
  have log : taken.calls.toList = recorded.calls.toList ++ applications place 0 := by
    simp [taken, applications]
  rw [Round.notedAttend, bind_of_ok look, bind_of_ok take]
  rcases notedWrites_cases place found.slave recorded.calls.toList found.pending taken 0 log with
    ⟨applied, writing, handlesEq, logEq⟩ | ⟨count, fault, stopped, writing, early, handlesEq, logEq⟩
  · rw [bind_of_ok writing]
    rw [Nat.zero_add, ← queueEq] at logEq
    have emptiesApplied := empties.keep (apartFrom_congr handlesEq place)
    have finishes := round.apartFrom_finish place applied.inner
    cases finishing : round.finish place applied.inner with
    | ok _ finished =>
        rw [finishing] at finishes
        rw [bind_of_ok (quietly_of_ok finishing)]
        refine ⟨emptiesApplied.keep finishes, Or.inl ⟨_, rfl, ?_⟩⟩
        show (applied.calls.push (.attended place)).toList = _
        rw [Array.toList_push, logEq, service, List.append_assoc]
    | error fault finished =>
        rw [finishing] at finishes
        rw [bind_of_error (quietly_of_error finishing)]
        exact ⟨emptiesApplied.keep finishes, Or.inr (Or.inr ⟨fault, _, rfl, logEq⟩)⟩
  · rw [bind_of_error writing]
    rw [Nat.zero_add, ← queueEq] at early
    have emptiesStopped := empties.keep (apartFrom_congr handlesEq place)
    exact ⟨emptiesStopped, Or.inr (Or.inl ⟨count, fault, stopped, rfl, early, logEq⟩)⟩

omit [Engine ε] in
@[simp]
theorem refused_notMem_applications (other count place position : Nat) :
    Deed.refused place position ∉ applications other count := by
  simp [applications]

omit [Engine ε] in
@[simp]
theorem refused_notMem_service (master : Master ε) (other place position : Nat) :
    Deed.refused place position ∉ service master other := by
  simp [service]

omit [Engine ε] in
theorem service_congr {before after : Master ε} {place : Nat}
    (same : after.handles[place]? = before.handles[place]?) :
    service after place = service before place := by
  rw [service, service, queueOf_congr same]

/-- A round over some places that refused a write has served the places before and has not come
to those after.  The log carries the induction: a place that is served adds no refusal to it. -/
theorem Round.notedAll_of_refused (round : Round) {places : List Nat} (distinct : places.Nodup)
    (held : ∀ other ∈ places, ∃ found, recorded.inner.handles[other]? = some found)
    (fresh : Deed.refused place position ∉ recorded.calls.toList)
    (refused : Deed.refused place position ∈
      (final (round.notedAll places recorded)).calls.toList) :
    ∃ earlier later fault after, places = earlier ++ place :: later ∧
      position < (queueOf recorded.inner place).length ∧
      round.notedAll places recorded = .error fault after ∧
      after.calls.toList = recorded.calls.toList ++ earlier.flatMap (service recorded.inner) ++
        applications place position ++ [.refused place position] ∧
      (∀ other ∈ earlier ++ [place], queueOf after.inner other = []) ∧
      ∀ other ∉ earlier ++ [place], after.inner.handles[other]? = recorded.inner.handles[other]? := by
  induction places generalizing recorded with
  | nil => exact absurd refused fresh
  | cons first rest ih =>
      obtain ⟨found, holds⟩ := held first List.mem_cons_self
      obtain ⟨firstFresh, restDistinct⟩ := List.nodup_cons.mp distinct
      obtain ⟨empties, outcome⟩ := round.notedAttend_cases holds
      rw [Round.notedAll] at refused ⊢
      rcases outcome with ⟨served, attended, log⟩ | ⟨count, fault, stopped, failed, early, log⟩ |
        ⟨fault, stopped, failed, log⟩
      · rw [attended] at empties
        rw [bind_of_ok attended] at refused ⊢
        have kept : ∀ other ∈ rest,
            served.inner.handles[other]? = recorded.inner.handles[other]? := by
          intro other member
          apply empties.others other
          rintro rfl
          exact firstFresh member
        have heldRest : ∀ other ∈ rest, ∃ found, served.inner.handles[other]? = some found := by
          intro other member
          rw [kept other member]
          exact held other (List.mem_cons_of_mem _ member)
        have freshRest : Deed.refused place position ∉ served.calls.toList := by
          simp [log, fresh]
        obtain ⟨earlier, later, fault, after, split, early, failed, logEq, taken, untouched⟩ :=
          ih restDistinct heldRest freshRest refused
        have inRest : ∀ other ∈ earlier ++ [place], other ∈ rest := by
          intro other member
          rw [split]
          simp only [List.mem_append, List.mem_cons] at member ⊢
          tauto
        have servicesEq : earlier.flatMap (service served.inner) =
            earlier.flatMap (service recorded.inner) := by
          apply List.flatMap_congr
          intro other member
          exact service_congr (kept other (inRest other (List.mem_append_left _ member)))
        have placeKept := kept place (inRest place (by simp))
        have firstOutside : first ∉ earlier ++ [place] := fun member => firstFresh (inRest first member)
        refine ⟨first :: earlier, later, fault, after, by rw [split]; rfl, ?_, failed, ?_, ?_, ?_⟩
        · rwa [queueOf_congr placeKept] at early
        · rw [logEq, log, servicesEq, List.flatMap_cons]
          simp only [List.append_assoc]
        · intro other member
          rcases List.mem_cons.mp member with rfl | later
          · rw [queueOf_congr (untouched other firstOutside)]
            exact empties.queue
          · exact taken other later
        · intro other outside
          have different : other ≠ first := fun same => outside (by simp [same])
          have outsideRest : other ∉ earlier ++ [place] :=
            fun member => outside (List.mem_cons_of_mem first member)
          exact (untouched other outsideRest).trans (empties.others other different)
      · rw [failed] at empties
        rw [bind_of_error failed] at refused ⊢
        have same : place = first ∧ position = count := by
          simpa [final, log, fresh] using refused
        obtain ⟨rfl, rfl⟩ := same
        refine ⟨[], rest, fault, stopped, rfl, early, rfl, by simpa using log, ?_, ?_⟩
        · intro other member
          rw [List.nil_append, List.mem_singleton] at member
          rw [member]
          exact empties.queue
        · intro other outside
          exact empties.others other (by simpa using outside)
      · rw [bind_of_error failed] at refused
        simp [final, log, fresh] at refused

end Deeds

section Costs

variable {place position : Nat} {master judged : Master ε}

omit [Engine ε] in
theorem registeredPlaces_sorted (master : Master ε) :
    (registeredPlaces master).Pairwise (· < ·) :=
  List.Pairwise.filter _ List.pairwise_lt_range

omit [Engine ε] in
theorem registeredPlaces_congr {before after : Master ε} (same : after.handles = before.handles) :
    registeredPlaces after = registeredPlaces before := by
  rw [registeredPlaces, registeredPlaces, same]

theorem filter_lt_of_sorted {places earlier later : List Nat} {place : Nat}
    (sorted : places.Pairwise (· < ·)) (split : places = earlier ++ place :: later) :
    places.filter (· < place) = earlier := by
  rw [split, List.pairwise_append, List.pairwise_cons] at sorted
  obtain ⟨_, ⟨after, _⟩, before⟩ := sorted
  have kept : earlier.filter (· < place) = earlier := by
    apply List.filter_eq_self.mpr
    intro other member
    simpa using before other member place List.mem_cons_self
  have dropped : (place :: later).filter (· < place) = [] := by
    apply List.filter_eq_nil_iff.mpr
    intro other member
    rcases List.mem_cons.mp member with rfl | behind
    · simp
    · have := after other behind
      simp
      omega
  rw [split, List.filter_append, kept, dropped, List.append_nil]

namespace Round

/-- The registered places before a place. -/
def before (master : Master ε) (place : Nat) : List Nat :=
  (registeredPlaces master).filter (· < place)

/-- How a round ends that a refused write stopped: the handles before have been served, the
queue of the handle itself is gone with all that was not applied, and no other handle has
changed. -/
structure StoppedAt (round : Round) (master : Master ε) (place position : Nat) : Prop where
  fails : ∃ fault after, round.run master = .error fault after
  registered : place ∈ registeredPlaces master
  early : position < (queueOf master place).length
  deeds : round.deeds master = (before master place).flatMap (service master) ++
    applications place position ++ [.refused place position]
  taken : ∀ other ∈ before master place ++ [place], queueOf (final (round.run master)) other = []
  untouched : ∀ other ∉ before master place ++ [place],
    (final (round.run master)).handles[other]? = master.handles[other]?

/-- Only a write that was refused stops a round in this way. -/
theorem stoppedAt_of_refused {round : Round}
    (refused : Deed.refused place position ∈ round.deeds master) :
    round.StoppedAt master place position := by
  have records := round.records_noted ⟨master, #[]⟩
  have preludeKeeps := round.handles_prelude master
  rw [Round.deeds, Round.noted] at refused
  rw [Round.noted] at records
  cases opening : round.prelude master with
  | error fault opened =>
      have quiet : quietly round.prelude (⟨master, #[]⟩ : Recorded (Master ε) Deed) =
          .error fault ⟨opened, #[]⟩ := quietly_of_error opening
      rw [bind_of_error quiet] at refused
      simp [final] at refused
  | ok _ opened =>
      rw [opening] at preludeKeeps
      have handlesEq : opened.handles = master.handles := preludeKeeps
      have quiet : quietly round.prelude (⟨master, #[]⟩ : Recorded (Master ε) Deed) =
          .ok () ⟨opened, #[]⟩ := quietly_of_ok opening
      have look : quietly (get : Action (Master ε) (Master ε)) ⟨opened, (#[] : Array Deed)⟩ =
          .ok opened ⟨opened, #[]⟩ := rfl
      have noting : round.noted ⟨master, #[]⟩ =
          round.notedAll (registeredPlaces opened) ⟨opened, #[]⟩ := by
        rw [Round.noted, bind_of_ok quiet, bind_of_ok look]
      rw [bind_of_ok quiet, bind_of_ok look] at refused records
      have sorted := registeredPlaces_sorted opened
      have held : ∀ other ∈ registeredPlaces opened,
          ∃ found, opened.handles[other]? = some found := by
        intro other member
        exact exists_handle_of_lt (lt_of_mem_registeredPlaces member)
      obtain ⟨earlier, later, fault, after, split, early, failed, logEq, taken, untouched⟩ :=
        round.notedAll_of_refused (sorted.imp Nat.ne_of_lt) held (by simp) refused
      have earlierEq : earlier = before master place := by
        rw [← filter_lt_of_sorted sorted split, before, registeredPlaces_congr handlesEq]
      have servicesEq : earlier.flatMap (service opened) = earlier.flatMap (service master) := by
        apply List.flatMap_congr
        intro other _
        exact service_congr (by rw [handlesEq])
      rw [failed] at records
      have ran : round.run master = .error fault after.inner := records.symm
      have log : round.deeds master = after.calls.toList := by
        rw [Round.deeds, noting, failed]
        rfl
      refine ⟨⟨fault, after.inner, ran⟩, ?_, ?_, ?_, ?_, ?_⟩
      · rw [← registeredPlaces_congr handlesEq, split]
        simp
      · have queueEq : queueOf opened place = queueOf master place :=
          queueOf_congr (by rw [handlesEq])
        rwa [queueEq] at early
      · rw [log, logEq, servicesEq, earlierEq]
        simp
      · rw [ran, ← earlierEq]
        exact taken
      · rw [ran, ← earlierEq]
        intro other outside
        exact (untouched other outside).trans (by rw [handlesEq])

def Applicable (judged : Master ε) (slave : Int) (write : EntryIndex × Value) : Prop :=
  ∃ after, setValue slave write.1 write.2 judged = .ok () after

/-- A round that refused a write spares the others: every other write that can be applied was
applied or is still queued, and the round is done with every other handle. -/
structure Spares (round : Round) (judged master : Master ε) (place position : Nat) : Prop where
  writes : ∀ other queued write, (other, queued) ≠ (place, position) →
    (queueOf master other)[queued]? = some write →
      Applicable judged (slaveOf master other) write →
        Deed.applied other queued ∈ round.deeds master ∨
          (queueOf (final (round.run master)) other)[queued]? = some write
  handles : ∀ other ∈ registeredPlaces master, other ≠ place →
    Deed.attended other ∈ round.deeds master

variable {round : Round}

namespace StoppedAt

omit [Engine ε] in
theorem mem_before_iff {other : Nat} :
    other ∈ before master place ↔ other ∈ registeredPlaces master ∧ other < place := by
  simp [before]

theorem applied_iff (stopped : round.StoppedAt master place position) {other queued : Nat} :
    Deed.applied other queued ∈ round.deeds master ↔
      other ∈ before master place ∧ queued < (queueOf master other).length ∨
        other = place ∧ queued < position := by
  rw [stopped.deeds]
  simp only [service, applications, List.mem_append, List.mem_flatMap, List.mem_map,
    List.mem_range, List.mem_singleton, Deed.applied.injEq, reduceCtorEq, or_false]
  constructor
  · rintro (⟨_, member, _, inside, rfl, rfl⟩ | ⟨_, inside, rfl, rfl⟩)
    · exact Or.inl ⟨member, inside⟩
    · exact Or.inr ⟨rfl, inside⟩
  · rintro (⟨member, inside⟩ | ⟨rfl, inside⟩)
    · exact Or.inl ⟨other, member, queued, inside, rfl, rfl⟩
    · exact Or.inr ⟨queued, inside, rfl, rfl⟩

theorem attended_iff (stopped : round.StoppedAt master place position) {other : Nat} :
    Deed.attended other ∈ round.deeds master ↔ other ∈ before master place := by
  rw [stopped.deeds]
  simp [service, applications]

/-- A write behind the refused one is neither applied nor queued any more. -/
theorem lost (stopped : round.StoppedAt master place position) {behind : Nat}
    (later : position < behind) :
    Deed.applied place behind ∉ round.deeds master ∧
      queueOf (final (round.run master)) place = [] := by
  refine ⟨?_, stopped.taken place (by simp)⟩
  intro applied
  rcases stopped.applied_iff.mp applied with ⟨earlier, _⟩ | ⟨_, early⟩
  · have inside := (mem_before_iff.mp earlier).2
    omega
  · omega

/-- A write of another handle was applied, or the queue it stands in is as before. -/
theorem applied_or_kept (stopped : round.StoppedAt master place position) {other queued : Nat}
    (different : other ≠ place) (inside : queued < (queueOf master other).length) :
    Deed.applied other queued ∈ round.deeds master ∨
      queueOf (final (round.run master)) other = queueOf master other := by
  by_cases served : other ∈ before master place
  · exact Or.inl (stopped.applied_iff.mpr (Or.inl ⟨served, inside⟩))
  · have outside : other ∉ before master place ++ [place] := by
      simp [served, different]
    exact Or.inr (queueOf_congr (stopped.untouched other outside))

end StoppedAt

/-- A round that refused a write ends with it, and it spares the other writes and handles exactly
if the handle is the last one that is registered and no write behind in its queue could be
applied. -/
theorem spares_iff (refused : Deed.refused place position ∈ round.deeds master)
    (judged : Master ε) :
    round.StoppedAt master place position ∧
      (round.Spares judged master place position ↔
        (∀ other ∈ registeredPlaces master, other ≤ place) ∧
          ∀ behind write, position < behind → (queueOf master place)[behind]? = some write →
            ¬ Applicable judged (slaveOf master place) write) := by
  have stopped := stoppedAt_of_refused refused
  refine ⟨stopped, ?_⟩
  constructor
  · intro spares
    refine ⟨?_, ?_⟩
    · intro other registered
      by_contra after
      have attended := spares.handles other registered (by omega)
      have earlier := StoppedAt.mem_before_iff.mp (stopped.attended_iff.mp attended)
      omega
    · intro behind write later queued applicable
      obtain ⟨unapplied, gone⟩ := stopped.lost later
      have different : (place, behind) ≠ (place, position) := by
        simp only [ne_eq, Prod.mk.injEq, true_and]
        omega
      rcases spares.writes place behind write different queued applicable with applied | kept
      · exact unapplied applied
      · simp [gone] at kept
  · rintro ⟨isLast, hopeless⟩
    refine ⟨?_, ?_⟩
    · intro other queued write different holds applicable
      by_cases same : other = place
      · subst same
        rcases Nat.lt_trichotomy queued position with before | rfl | behind
        · exact Or.inl (stopped.applied_iff.mpr (Or.inr ⟨rfl, before⟩))
        · exact absurd rfl different
        · exact absurd applicable (hopeless queued write behind holds)
      · have inside := (List.getElem?_eq_some_iff.mp holds).1
        rcases stopped.applied_or_kept same inside with applied | kept
        · exact Or.inl applied
        · exact Or.inr (by rw [kept, holds])
    · intro other registered different
      have served := isLast other registered
      exact stopped.attended_iff.mpr (StoppedAt.mem_before_iff.mpr ⟨registered, by omega⟩)

end Round

/-- A slave that maps one byte of outputs. -/
def dimmerSlave : SimulatedSlave :=
  { SimulatedSlave.plain with
    outputBytes := 1
    mailbox := [
      (⟨0x1c00, 0⟩, [.data [3]]), (⟨0x1c00, 3⟩, [.data [3]]),
      (⟨0x1c12, 0⟩, [.data [1]]), (⟨0x1c12, 1⟩, [.data [0x00, 0x16]]),
      (⟨0x1600, 0⟩, [.data [1]]), (⟨0x1600, 1⟩, [.data (Layout.mappingWord 0x7000 1 8)])] }

/-- A master of that slave with two handles, after the bus was opened.  Before that, a write to
an entry that is not mapped and one to the entry that is were queued for the first handle. -/
def hastyMaster : Master MemoryEngine :=
  Command.performAll [
    .register 0 false, .register 0 false,
    .queue 0 ⟨0x9999, 1⟩ ⟨.u8, .int 1⟩, .queue 0 ⟨0x7000, 1⟩ ⟨.u8, .int 7⟩,
    .openBus false]
    (idle BusConfig.defaults none
      (MemoryEngine.ofSegment { Segment.bare with slaves := [dimmerSlave] }))

/-- The first write is refused, the second one is lost with it, and the cycle does not come to
the second handle. -/
theorem spares_iff_hastyMaster :
    Deed.refused 0 0 ∈ Round.cycle.deeds hastyMaster ∧
      Round.cycle.StoppedAt hastyMaster 0 0 ∧
      Round.Applicable hastyMaster 0 (⟨0x7000, 1⟩, ⟨.u8, .int 7⟩) ∧
      queueOf (final (Round.cycle.run hastyMaster)) 0 = [] ∧
      (final (Round.cycle.run hastyMaster)).engine.image = [0] ∧
      ¬ Round.cycle.Spares hastyMaster hastyMaster 0 0 := by
  have refused : Deed.refused 0 0 ∈ Round.cycle.deeds hastyMaster := by decide +kernel
  have applicable : Round.Applicable hastyMaster 0 (⟨0x7000, 1⟩, ⟨.u8, .int 7⟩) := by
    apply exists_ok_of_result?
    decide +kernel
  obtain ⟨stopped, spares⟩ := Round.spares_iff refused hastyMaster
  have gone : queueOf (final (Round.cycle.run hastyMaster)) 0 = [] := stopped.taken 0 (by simp)
  refine ⟨refused, stopped, applicable, gone, by decide +kernel, ?_⟩
  rw [spares]
  rintro ⟨isLast, _⟩
  have second : 1 ∈ registeredPlaces hastyMaster := by decide +kernel
  exact absurd (isLast 1 second) (by decide)

end Costs

end Master

end Fieldbus
