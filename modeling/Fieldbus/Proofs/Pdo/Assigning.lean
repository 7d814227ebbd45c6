import Fieldbus.Pdo.Assignment
import Fieldbus.Proofs.Segment.Stored

/-!
# What an assignment writes

An assignment is a fixed plan of writes: for each direction the count is cleared, the indices are
written, and the count is set.  Wherever it stops, it has made the first writes of this plan and no
others, so the objects of both directions are told from how far the plan came.  The main statement
says what an interrupted assignment leaves in the mailbox table of a slave.
-/

namespace Fieldbus

open Fieldbus.Action

namespace Assignment

/-- A planned write of a number as an unsigned field. -/
structure Step where
  entry : EntryIndex
  width : Nat
  value : Int

namespace Step

/-- The number has a place in its field. -/
def Fits (step : Step) : Prop :=
  0 ≤ step.value ∧ step.value < (Nat.pow 256 step.width : Nat)

def data (step : Step) : Bytes :=
  Bytes.ofNat step.width step.value.toNat

/-- The table after some writes, each of which is the only answer of its entry. -/
def putAll (table : MailboxTable) (steps : List Step) : MailboxTable :=
  steps.foldl (fun table step => table.put step.entry [.data step.data]) table

end Step

/-- The writes of indices from a subindex on. -/
def indexSteps (direction : Direction) : (subindex : Nat) → List Int → List Step
  | _, [] => []
  | subindex, pdo :: rest =>
      ⟨⟨direction.index, subindex⟩, 2, pdo⟩ :: indexSteps direction (subindex + 1) rest

def countStep (direction : Direction) (count : Nat) : Step :=
  ⟨⟨direction.index, 0⟩, 1, count⟩

/-- The writes that assign objects to a direction. -/
def directionSteps (direction : Direction) (pdos : List Int) : List Step :=
  countStep direction 0 :: (indexSteps direction 1 pdos ++ [countStep direction pdos.length])

def steps (lists : PdoLists) : List Step :=
  directionSteps outputs lists.rx ++ directionSteps inputs lists.tx

theorem field_eq_ok_iff {width : Nat} {value : Int} {data : Bytes} :
    field width value = .ok data ↔
      (0 ≤ value ∧ value < (Nat.pow 256 width : Nat)) ∧ Bytes.ofNat width value.toNat = data := by
  rw [field]
  split
  · rename_i fits
    rw [Except.ok.injEq, and_iff_right fits]
  · rename_i tooLarge
    simp only [reduceCtorEq, tooLarge, false_and]

section Tables

variable {table : MailboxTable} {direction : Direction} {entry : EntryIndex}

theorem putAll_append (table : MailboxTable) (first second : List Step) :
    Step.putAll table (first ++ second) = Step.putAll (Step.putAll table first) second :=
  List.foldl_append

theorem get?_putAll_of_ne {made : List Step} (others : ∀ step ∈ made, step.entry ≠ entry) :
    (Step.putAll table made).get? entry = table.get? entry := by
  induction made generalizing table with
  | nil => rfl
  | cons step rest ih =>
      have later : ∀ other ∈ rest, other.entry ≠ entry := by
        intro other member
        exact others other (List.mem_cons_of_mem _ member)
      rw [Step.putAll, List.foldl_cons]
      refine (ih later).trans ?_
      rw [Table.get?_put, if_neg (others step List.mem_cons_self)]

theorem get?_putAll_concat (table : MailboxTable) (made : List Step) (step : Step) :
    (Step.putAll table (made ++ [step])).get? step.entry = some [.data step.data] := by
  rw [putAll_append]
  exact (Table.get?_put _ _ _ _).trans (if_pos rfl)

theorem mem_indexSteps {subindex : Nat} {pdos : List Int} {step : Step}
    (member : step ∈ indexSteps direction subindex pdos) :
    step.width = 2 ∧ step.value ∈ pdos ∧
      ∃ later, subindex ≤ later ∧ step.entry = ⟨direction.index, later⟩ := by
  induction pdos generalizing subindex with
  | nil => cases member
  | cons pdo rest ih =>
      rcases List.mem_cons.mp member with rfl | more
      · exact ⟨rfl, List.mem_cons_self, subindex, Nat.le_refl _, rfl⟩
      · obtain ⟨width, listed, later, after, entryEq⟩ := ih more
        exact ⟨width, List.mem_cons_of_mem _ listed, later, by omega, entryEq⟩

theorem index_of_mem_directionSteps {pdos : List Int} {step : Step}
    (member : step ∈ directionSteps direction pdos) : step.entry.index = direction.index := by
  rcases List.mem_cons.mp member with rfl | later
  · rfl
  · rcases List.mem_append.mp later with listed | last
    · obtain ⟨_, _, _, _, entryEq⟩ := mem_indexSteps listed
      rw [entryEq]
    · rw [List.mem_singleton.mp last]
      rfl

theorem get?_putAll_indexSteps {pdos : List Int} {subindex place : Nat} {pdo : Int}
    (listed : pdos[place]? = some pdo) :
    (Step.putAll table (indexSteps direction subindex pdos)).get?
        ⟨direction.index, (subindex + place : Nat)⟩ =
      some [.data (Bytes.ofNat 2 pdo.toNat)] := by
  induction pdos generalizing table subindex place with
  | nil => cases listed
  | cons first rest ih =>
      rw [indexSteps, Step.putAll, List.foldl_cons]
      cases place with
      | zero =>
          cases listed
          refine (get?_putAll_of_ne ?_).trans ((Table.get?_put _ _ _ _).trans (if_pos rfl))
          intro step member
          obtain ⟨_, _, later, after, entryEq⟩ := mem_indexSteps member
          rw [entryEq]
          intro same
          have subindexEq := (EntryIndex.mk.inj same).2
          omega
      | succ place =>
          have found : rest[place]? = some pdo := listed
          rw [show subindex + (place + 1) = subindex + 1 + place by omega]
          exact ih found

end Tables

section Objects

variable {direction : Direction} {pdos : List Int} {before after : MailboxTable}

/-- An object is as it was. -/
def Untouched (direction : Direction) (before after : MailboxTable) : Prop :=
  ∀ subindex, after.get? ⟨direction.index, subindex⟩ = before.get? ⟨direction.index, subindex⟩

/-- No objects are in force for a direction, whatever is listed. -/
def Voided (direction : Direction) (table : MailboxTable) : Prop :=
  table.get? ⟨direction.index, 0⟩ = some [.data [0]]

/-- A list of objects is in force for a direction, all with their indices. -/
structure Assigned (direction : Direction) (pdos : List Int) (table : MailboxTable) : Prop where
  short : pdos.length < 256
  counted : table.get? ⟨direction.index, 0⟩ = some [.data [UInt8.ofNat pdos.length]]
  listed : ∀ (place : Nat) (pdo : Int), pdos[place]? = some pdo → 0 ≤ pdo ∧ pdo < 0x10000 ∧
    table.get? ⟨direction.index, (place + 1 : Nat)⟩ = some [.data (Bytes.ofNat 2 pdo.toNat)]

theorem untouched_of_ne {made : List Step}
    (others : ∀ step ∈ made, step.entry.index ≠ direction.index) :
    Untouched direction before (Step.putAll before made) := by
  intro subindex
  apply get?_putAll_of_ne
  intro step member same
  exact others step member (congrArg EntryIndex.index same)

theorem mem_indexSteps_of_getElem? {subindex place : Nat} {pdo : Int}
    (found : pdos[place]? = some pdo) :
    (⟨⟨direction.index, (subindex + place : Nat)⟩, 2, pdo⟩ : Step) ∈
      indexSteps direction subindex pdos := by
  induction pdos generalizing subindex place with
  | nil => cases found
  | cons first rest ih =>
      cases place with
      | zero =>
          cases found
          exact List.mem_cons_self
      | succ place =>
          have later : rest[place]? = some pdo := found
          rw [show subindex + (place + 1) = subindex + 1 + place by omega]
          exact List.mem_cons_of_mem _ (ih later)

/-- All writes of a direction put its list in force. -/
theorem assigned_putAll (table : MailboxTable)
    (fits : ∀ step ∈ directionSteps direction pdos, step.Fits) :
    Assigned direction pdos (Step.putAll table (directionSteps direction pdos)) where
  short := by
    have last : countStep direction pdos.length ∈ directionSteps direction pdos := by
      simp [directionSteps]
    have bounded := (fits _ last).2
    simp only [countStep, Nat.pow_eq] at bounded
    omega
  counted := by
    rw [directionSteps, ← List.cons_append]
    exact get?_putAll_concat table _ (countStep direction pdos.length)
  listed place pdo found := by
    have member : (⟨⟨direction.index, (1 + place : Nat)⟩, 2, pdo⟩ : Step) ∈
        indexSteps direction 1 pdos := mem_indexSteps_of_getElem? found
    have planned : (⟨⟨direction.index, (1 + place : Nat)⟩, 2, pdo⟩ : Step) ∈
        directionSteps direction pdos :=
      List.mem_cons_of_mem _ (List.mem_append_left _ member)
    obtain ⟨nonneg, bounded⟩ := fits _ planned
    refine ⟨nonneg, bounded, ?_⟩
    rw [directionSteps, ← List.cons_append, putAll_append, Nat.add_comm place 1]
    refine (get?_putAll_of_ne ?_).trans (get?_putAll_indexSteps found)
    intro step last same
    rw [List.mem_singleton.mp last] at same
    have subindexEq := (EntryIndex.mk.inj same).2
    omega

/-- The first writes of a direction clear its count at once. -/
theorem directionSteps_stopped {made : List Step} (first : made <+: directionSteps direction pdos)
    (table : MailboxTable) :
    made = [] ∨ Voided direction (Step.putAll table made) ∨
      made = directionSteps direction pdos := by
  rcases List.prefix_cons_iff.mp first with none | ⟨more, rfl, later⟩
  · exact Or.inl none
  · rcases List.prefix_concat_iff.mp later with all | listed
    · rw [all]
      exact Or.inr (Or.inr rfl)
    · refine Or.inr (Or.inl ?_)
      rw [Voided, Step.putAll, List.foldl_cons]
      refine (get?_putAll_of_ne ?_).trans ((Table.get?_put _ _ _ _).trans (if_pos rfl))
      intro step member same
      obtain ⟨_, _, subindex, after, entryEq⟩ := mem_indexSteps (listed.subset member)
      rw [entryEq] at same
      have subindexEq := (EntryIndex.mk.inj same).2
      omega

/-- What is left of the objects of both directions when an assignment stops: each is as it was, or
has no objects in force, or has its new list in force, and the inputs are as they were unless the
outputs have their new list.  No other object is written. -/
structure Interrupted (lists : PdoLists) (before after : MailboxTable) : Prop where
  outputs : Untouched Assignment.outputs before after ∨ Voided Assignment.outputs after ∨
    Assigned Assignment.outputs lists.rx after
  inputs : Untouched Assignment.inputs before after ∨ Voided Assignment.inputs after ∨
    Assigned Assignment.inputs lists.tx after
  ordered : Untouched Assignment.inputs before after ∨
    Assigned Assignment.outputs lists.rx after
  others : ∀ entry : EntryIndex, entry.index ≠ Assignment.outputs.index →
    entry.index ≠ Assignment.inputs.index → after.get? entry = before.get? entry

theorem Assigned.of_untouched (assigned : Assigned direction pdos before)
    (untouched : Untouched direction before after) : Assigned direction pdos after where
  short := assigned.short
  counted := (untouched 0).trans assigned.counted
  listed place pdo found := by
    obtain ⟨nonneg, bounded, held⟩ := assigned.listed place pdo found
    exact ⟨nonneg, bounded, (untouched _).trans held⟩

theorem untouched_putAll_of_direction {other : Direction} {made : List Step}
    (apart : other.index ≠ direction.index) (first : made <+: directionSteps other pdos) :
    Untouched direction before (Step.putAll before made) := by
  apply untouched_of_ne
  intro step member
  rw [index_of_mem_directionSteps (first.subset member)]
  exact apart

theorem assigned_steps {lists : PdoLists} (fits : ∀ step ∈ steps lists, step.Fits)
    (table : MailboxTable) :
    Assigned outputs lists.rx (Step.putAll table (steps lists)) ∧
      Assigned inputs lists.tx (Step.putAll table (steps lists)) := by
  have fitsOutputs : ∀ step ∈ directionSteps outputs lists.rx, step.Fits :=
    fun step member => fits step (List.mem_append_left _ member)
  have fitsInputs : ∀ step ∈ directionSteps inputs lists.tx, step.Fits :=
    fun step member => fits step (List.mem_append_right _ member)
  rw [steps, putAll_append]
  have kept : Untouched outputs (Step.putAll table (directionSteps outputs lists.rx))
      (Step.putAll (Step.putAll table (directionSteps outputs lists.rx))
        (directionSteps inputs lists.tx)) :=
    untouched_putAll_of_direction (by decide) (List.prefix_refl _)
  exact ⟨(assigned_putAll table fitsOutputs).of_untouched kept, assigned_putAll _ fitsInputs⟩

/-- The first writes of a plan leave both objects as an interruption does. -/
theorem interrupted_putAll {lists : PdoLists} {made : List Step} (first : made <+: steps lists)
    (fits : ∀ step ∈ made, step.Fits) (table : MailboxTable) :
    Interrupted lists table (Step.putAll table made) := by
  have others : ∀ entry : EntryIndex, entry.index ≠ outputs.index → entry.index ≠ inputs.index →
      (Step.putAll table made).get? entry = table.get? entry := by
    intro entry notOutputs notInputs
    apply get?_putAll_of_ne
    intro step member same
    rw [← same] at notOutputs notInputs
    rcases List.mem_append.mp (first.subset member) with early | late
    · exact notOutputs (index_of_mem_directionSteps early)
    · exact notInputs (index_of_mem_directionSteps late)
  have leads :=
    List.prefix_append (directionSteps outputs lists.rx) (directionSteps inputs lists.tx)
  rcases List.prefix_or_prefix_of_prefix first leads with early | ⟨later, rfl⟩
  · have inputsKept : Untouched inputs table (Step.putAll table made) :=
      untouched_putAll_of_direction (by decide) early
    refine ⟨?_, Or.inl inputsKept, Or.inl inputsKept, others⟩
    rcases directionSteps_stopped early table with rfl | voided | rfl
    · exact Or.inl fun _ => rfl
    · exact Or.inr (Or.inl voided)
    · exact Or.inr (Or.inr (assigned_putAll table fits))
  · have late : later <+: directionSteps inputs lists.tx :=
      (List.prefix_append_right_inj _).mp first
    let between := Step.putAll table (directionSteps outputs lists.rx)
    have afterEq : Step.putAll table (directionSteps outputs lists.rx ++ later) =
        Step.putAll between later := putAll_append _ _ _
    rw [afterEq] at others ⊢
    have fitsOutputs : ∀ step ∈ directionSteps outputs lists.rx, step.Fits :=
      fun step member => fits step (List.mem_append_left _ member)
    have fitsInputs : ∀ step ∈ later, step.Fits :=
      fun step member => fits step (List.mem_append_right _ member)
    have outputsKept : Untouched outputs between (Step.putAll between later) :=
      untouched_putAll_of_direction (by decide) late
    have inputsBefore : Untouched inputs table between :=
      untouched_putAll_of_direction (by decide) (List.prefix_refl _)
    have assigned : Assigned outputs lists.rx (Step.putAll between later) :=
      (assigned_putAll table fitsOutputs).of_untouched outputsKept
    refine ⟨Or.inr (Or.inr assigned), ?_, Or.inr assigned, others⟩
    rcases directionSteps_stopped late between with rfl | voided | rfl
    · exact Or.inl inputsBefore
    · exact Or.inr (Or.inl voided)
    · exact Or.inr (Or.inr (assigned_putAll between fitsInputs))

end Objects

end Assignment

/-- A slave after some writes to its mailbox. -/
def SimulatedSlave.storing (slave : SimulatedSlave) (made : List Assignment.Step) :
    SimulatedSlave :=
  { slave with mailbox := Assignment.Step.putAll slave.mailbox made }

namespace MemoryEngine

open Assignment

/-- An engine after some writes to the mailbox of a slave, if it is there. -/
def storing (engine : MemoryEngine) (slave : Int) (made : List Step) : MemoryEngine :=
  match engine.segment.place? slave with
  | some place => { engine with segment := { engine.segment with
      slaves := engine.segment.slaves.modify place (·.storing made) } }
  | none => engine

variable {engine : MemoryEngine} {slave : Int}

@[simp]
theorem place?_storing (engine : MemoryEngine) (slave other : Int) (made : List Step) :
    (engine.storing slave made).segment.place? other = engine.segment.place? other := by
  rw [storing]
  split
  · simp only [Segment.place?, List.length_modify]
  · rfl

/-- The writes to a slave that is there replace the slave at its place. -/
theorem storing_eq_setSlave {place : Nat} {found : SimulatedSlave}
    (located : engine.segment.place? slave = some place)
    (present : engine.segment.slave? slave = some found) (made : List Step) :
    engine.storing slave made =
      { engine with segment := engine.segment.setSlave place (found.storing made) } := by
  rw [Segment.slave?, located, Option.bind_some] at present
  have replaced : engine.segment.slaves.modify place (·.storing made) =
      engine.segment.slaves.set place (found.storing made) := by
    rw [List.modify_eq_set, present]
    rfl
  rw [storing, located, Segment.setSlave, ← replaced]

theorem slave?_storing {found : SimulatedSlave}
    (present : engine.segment.slave? slave = some found) (made : List Step) :
    (engine.storing slave made).segment.slave? slave = some (found.storing made) := by
  cases located : engine.segment.place? slave with
  | none =>
      rw [Segment.slave?, located] at present
      cases present
  | some place =>
      rw [storing_eq_setSlave located present]
      exact Segment.slave?_setSlave located (Option.isSome_of_eq_some present) _

theorem getElem?_storing {place : Nat} {found : SimulatedSlave}
    (located : engine.segment.place? slave = some place)
    (listed : engine.segment.slaves[place]? = some found) (made : List Step) :
    (engine.storing slave made).segment.slaves[place]? = some (found.storing made) := by
  rw [storing, located]
  simp only [List.getElem?_modify, listed, if_true]
  rfl

theorem getElem?_storing_of_ne {place : Nat}
    (elsewhere : engine.segment.place? slave ≠ some place) (made : List Step) :
    (engine.storing slave made).segment.slaves[place]? = engine.segment.slaves[place]? := by
  rw [storing]
  cases located : engine.segment.place? slave with
  | none => rfl
  | some target =>
      have different : target ≠ place := by
        rintro rfl
        exact elsewhere located
      simp only [List.getElem?_modify, different, if_false]
      exact id_map _

@[simp]
theorem storing_nil (engine : MemoryEngine) (slave : Int) : engine.storing slave [] = engine := by
  rw [storing]
  split
  · rename_i place _
    show { engine with segment := { engine.segment with
      slaves := engine.segment.slaves.modify place id } } = engine
    rw [List.modify_id]
  · rfl

theorem storing_storing (engine : MemoryEngine) (slave : Int) (first second : List Step) :
    (engine.storing slave first).storing slave second = engine.storing slave (first ++ second) := by
  rw [storing, place?_storing, storing, storing]
  cases engine.segment.place? slave with
  | none => rfl
  | some place =>
      have composed : (fun found : SimulatedSlave => (found.storing first).storing second) =
          fun found => found.storing (first ++ second) := by
        funext found
        simp only [SimulatedSlave.storing, putAll_append]
      simp only [List.modify_modify_eq, Function.comp_def, composed]

end MemoryEngine

namespace Assignment

open MemoryEngine

variable {slave : Int} {plan : List Step}

/-- An action makes the writes of a plan in their order: all of them if it succeeds, and some of
the first if it fails. -/
structure Makes (slave : Int) (plan : List Step) (action : Action (Session MemoryEngine) Unit) :
    Prop where
  completed : ∀ {session after : Session MemoryEngine}, action session = .ok () after →
    (∀ step ∈ plan, step.Fits) ∧ after.engine = session.engine.storing slave plan
  stopped : ∀ {session after : Session MemoryEngine} {fault : Fault},
    action session = .error fault after →
    ∃ made, made <+: plan ∧ (∀ step ∈ made, step.Fits) ∧
      after.engine = session.engine.storing slave made

namespace Makes

variable {later : List Step} {action next : Action (Session MemoryEngine) Unit}

theorem pure : Makes slave [] (Pure.pure ()) where
  completed := by
    rintro session _ ⟨⟩
    refine ⟨fun step member => absurd member List.not_mem_nil, ?_⟩
    rw [storing_nil]
  stopped := by
    rintro session after fault ⟨⟩

/-- An action that fails before it writes anything. -/
theorem stopped_at_once (session : Session MemoryEngine) :
    ∃ made, made <+: plan ∧ (∀ step ∈ made, step.Fits) ∧
      session.engine = session.engine.storing slave made := by
  refine ⟨[], List.nil_prefix, fun step member => absurd member List.not_mem_nil, ?_⟩
  rw [storing_nil]

theorem bind (first : Makes slave plan action) (second : Makes slave later next) :
    Makes slave (plan ++ later) (action >>= fun _ => next) where
  completed := by
    intro session after succeeded
    obtain ⟨_, between, acted, continued⟩ := bind_eq_ok_iff.mp succeeded
    obtain ⟨fits, betweenEq⟩ := first.completed acted
    obtain ⟨fitsLater, afterEq⟩ := second.completed continued
    refine ⟨?_, ?_⟩
    · intro step member
      exact (List.mem_append.mp member).elim (fits step) (fitsLater step)
    · rw [afterEq, betweenEq, storing_storing]
  stopped := by
    intro session after fault failed
    rcases bind_eq_error_iff.mp failed with early | ⟨_, between, acted, continued⟩
    · obtain ⟨made, isPrefix, fits, afterEq⟩ := first.stopped early
      exact ⟨made, List.prefix_append_of_prefix isPrefix, fits, afterEq⟩
    · obtain ⟨fits, betweenEq⟩ := first.completed acted
      obtain ⟨made, isPrefix, fitsLater, afterEq⟩ := second.stopped continued
      refine ⟨plan ++ made, (List.prefix_append_right_inj _).mpr isPrefix, ?_, ?_⟩
      · intro step member
        exact (List.mem_append.mp member).elim (fits step) (fitsLater step)
      · rw [afterEq, betweenEq, storing_storing]

theorem mapFault (makes : Makes slave plan action) (change : Fault → Fault) :
    Makes slave plan (Action.mapFault change action) where
  completed succeeded := makes.completed (mapFault_eq_ok_iff.mp succeeded)
  stopped := by
    intro session after fault failed
    obtain ⟨cause, stopped, _⟩ := mapFault_eq_error_iff.mp failed
    exact makes.stopped stopped

/-- The writes that follow a number are planned with it, so the number has a place in its
field. -/
theorem field_bind (entry : EntryIndex) {width : Nat} {value : Int}
    {next : Bytes → Action (Session MemoryEngine) Unit}
    (follows : (⟨entry, width, value⟩ : Step).Fits →
      Makes slave plan (next (Bytes.ofNat width value.toNat))) :
    Makes slave plan (ofAccident (field width value) >>= next) := by
  cases encoded : field width value with
  | error accident =>
      refine ⟨?_, ?_⟩
      · rintro session after ⟨⟩
      · rintro session _ fault ⟨⟩
        exact stopped_at_once session
  | ok data =>
      obtain ⟨fits, rfl⟩ := field_eq_ok_iff.mp encoded
      exact follows fits

end Makes

/-- A write is made by the slave, or it is refused and nothing is written. -/
theorem download_outcome (engine : MemoryEngine) (slave : Int) (step : Step) :
    download slave step.entry step.data engine = .ok () (engine.storing slave [step]) ∨
      ∃ fault, download slave step.entry step.data engine = .error fault engine := by
  cases located : engine.segment.place? slave with
  | none =>
      have absent : slaveAt slave engine = .error (.accident .position) engine := by
        rw [slaveAt, bind_of_ok (get_apply _), located]
        rfl
      exact Or.inr ⟨_, bind_of_error absent⟩
  | some place =>
      have inside : place < engine.segment.slaves.length := by
        simp only [Segment.place?, Option.ite_none_right_eq_some, Option.some.injEq] at located
        omega
      have present : engine.segment.slave? slave = some engine.segment.slaves[place] := by
        rw [Segment.slave?, located, Option.bind_some, List.getElem?_eq_getElem inside]
      rw [download, bind_of_ok (slaveAt_of_found located present),
        storing_eq_setSlave located present]
      cases refusal : engine.segment.slaves[place].writeErrors.get? step.entry with
      | some error =>
          simp only [refusal]
          exact Or.inr ⟨_, rfl⟩
      | none =>
          simp only [refusal]
          exact Or.inl rfl

theorem makes_download {step : Step} (fits : step.Fits) (timeout : Number) :
    Makes slave [step]
      (Session.ask (Engine.download slave step.entry false step.data timeout)) := by
  refine ⟨?_, ?_⟩
  · intro session after succeeded
    obtain ⟨engine, downloaded, rfl⟩ := Session.ask_eq_ok_iff.mp succeeded
    refine ⟨?_, ?_⟩
    · intro other member
      rwa [List.mem_singleton.mp member]
    · rcases download_outcome session.engine slave step with stored | ⟨fault, refused⟩
      · cases stored.symm.trans downloaded
        rfl
      · cases refused.symm.trans downloaded
  · intro session after fault failed
    obtain ⟨engine, downloaded, rfl⟩ := within_eq_error_iff.mp failed
    rcases download_outcome session.engine slave step with stored | ⟨cause, refused⟩
    · cases stored.symm.trans downloaded
    · cases refused.symm.trans downloaded
      exact Makes.stopped_at_once session

theorem makes_write {direction : Direction} {subindex width : Nat} {value : Int}
    (fits : (⟨⟨direction.index, subindex⟩, width, value⟩ : Step).Fits) (label : Text)
    (timeout : Number) :
    Makes slave [⟨⟨direction.index, subindex⟩, width, value⟩]
      (write slave direction subindex (Bytes.ofNat width value.toNat) label timeout) :=
  (makes_download fits timeout).mapFault _

theorem makes_writeIndices (direction : Direction) (timeout : Number) (subindex : Nat)
    (pdos : List Int) :
    Makes slave (indexSteps direction subindex pdos)
      (writeIndices slave direction timeout subindex pdos) := by
  induction pdos generalizing subindex with
  | nil => exact Makes.pure
  | cons pdo rest ih =>
      apply Makes.field_bind ⟨direction.index, subindex⟩
      intro fits
      exact Makes.bind (makes_write fits _ timeout) (ih (subindex + 1))

theorem makes_writeDirection (direction : Direction) (pdos : List Int) (timeout : Number) :
    Makes slave (directionSteps direction pdos)
      (writeDirection slave direction pdos timeout) := by
  have clears : (countStep direction 0).Fits := by simp [countStep, Step.Fits]
  refine Makes.bind (makes_write clears _ timeout) ?_
  refine Makes.bind (makes_writeIndices direction timeout 1 pdos) ?_
  apply Makes.field_bind ⟨direction.index, 0⟩
  intro fits
  exact makes_write fits _ timeout

/-- An assignment makes the first of its writes and no others, and all of them if it succeeds. -/
theorem makes_configure (slave : Int) (lists : PdoLists) (timeout : Number) :
    Makes slave (steps lists) (configure slave lists timeout) :=
  Makes.bind (makes_writeDirection outputs lists.rx timeout)
    (makes_writeDirection inputs lists.tx timeout)

/-- Wherever an assignment stops, it leaves the objects of both directions of its slave as an
interruption may, and every other object and every other slave as they were. -/
theorem configure_interrupted {lists : PdoLists} {timeout : Number}
    {session after : Session MemoryEngine} {fault : Fault}
    (stopped : configure slave lists timeout session = .error fault after) :
    (∀ place, session.engine.segment.place? slave ≠ some place →
      after.engine.segment.slaves[place]? = session.engine.segment.slaves[place]?) ∧
    ∀ place found, session.engine.segment.place? slave = some place →
      session.engine.segment.slaves[place]? = some found →
      ∃ table, after.engine.segment.slaves[place]? = some { found with mailbox := table } ∧
        Interrupted lists found.mailbox table := by
  obtain ⟨made, first, fits, engineEq⟩ := (makes_configure slave lists timeout).stopped stopped
  rw [engineEq]
  refine ⟨?_, ?_⟩
  · intro place elsewhere
    exact getElem?_storing_of_ne elsewhere made
  · intro place found located listed
    refine ⟨Step.putAll found.mailbox made, ?_, interrupted_putAll first fits found.mailbox⟩
    exact getElem?_storing located listed made

/-- A session with a slave that has an object assigned to each direction. -/
def assignedSession : Session MemoryEngine :=
  ⟨MemoryEngine.ofSegment { Segment.bare with slaves := [{ SimulatedSlave.plain with
    mailbox := [(⟨0x1c12, 0⟩, [.data [1]]), (⟨0x1c12, 1⟩, [.data [0x02, 0x16]]),
      (⟨0x1c13, 0⟩, [.data [1]]), (⟨0x1c13, 1⟩, [.data [0x02, 0x1a]])] }] }, #[]⟩

/-- The second index of the inputs has no place in its field. -/
theorem configure_interrupted_tooLarge :
    ∃ fault after table,
      configure 0 ⟨[0x1600], [0x1a00, 0x10000]⟩ (.int 0) assignedSession = .error fault after ∧
      after.engine.segment.slaves[0]? =
        some { assignedSession.engine.segment.slaves[0] with mailbox := table } ∧
      Interrupted ⟨[0x1600], [0x1a00, 0x10000]⟩
        assignedSession.engine.segment.slaves[0].mailbox table := by
  have stops : outcome (configure 0 ⟨[0x1600], [0x1a00, 0x10000]⟩ (.int 0) assignedSession) =
      .error (.accident .field) := rfl
  obtain ⟨after, stopped⟩ := exists_error_of_outcome stops
  obtain ⟨table, afterEq, interrupted⟩ := (configure_interrupted stopped).2 0 _ rfl rfl
  exact ⟨_, after, table, stopped, afterEq, interrupted⟩

end Assignment

end Fieldbus
