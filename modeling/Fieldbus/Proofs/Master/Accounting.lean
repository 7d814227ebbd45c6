import Fieldbus.Proofs.Master.Rounds

/-!
# How cycles are counted

The process-data task counts each cycle as good or bad, in two places: an exchange that returns
is counted by its working counter, and a cycle that fails is counted as bad where its fault is
caught.  A cycle whose exchange returns and that fails later, while a handle is updated, is
counted in both.
-/

namespace Fieldbus

namespace Master

open Fieldbus.Action

variable {ε : Type}

def counts (master : Master ε) : Nat × Nat :=
  (master.okCount, master.errorCount)

instance : AllowsSession (Keep (counts (ε := ε))) where
  session _ _ := rfl

instance : AllowsHandles (Keep (counts (ε := ε))) where
  handles _ _ := rfl

instance : AllowsSession (Keep (config (ε := ε))) where
  session _ _ := rfl

variable [Engine ε]

instance : AllowsCycles (Keep (config (ε := ε))) where
  lastWkc _ _ := rfl
  okCount _ _ := rfl
  errorCount _ _ := rfl
  handles _ _ := rfl

/-- The exchange of the next cycle returns a working counter, where another may be expected. -/
def Returns (master : Master ε) (wkc expected : Int) : Prop :=
  ∃ timeout engine later, master.config.recvTimeout = .ok timeout ∧
    Engine.exchange (.real timeout) master.engine = .ok wkc engine ∧
    Engine.expectedWkc engine = .ok expected later

/-- The exchange of the next cycle returns. -/
def Exchanges (master : Master ε) : Prop :=
  ∃ wkc expected, master.Returns wkc expected

/-- The exchange of the next cycle returns the expected working counter. -/
def Expected (master : Master ε) : Prop :=
  ∃ wkc, master.Returns wkc wkc

/-- The next cycle comes to its end. -/
def Completes (master : Master ε) : Prop :=
  ∃ wkc after, cycle master = .ok wkc after

/-- A cycle is counted once: as good if its exchange returned the expected working counter and
it came to its end, as bad otherwise. -/
def CountedOnce (before : Master ε) (counts : Nat × Nat) : Prop :=
  (Expected before ∧ Completes before ∧ counts = (before.okCount + 1, before.errorCount)) ∨
    (¬ (Expected before ∧ Completes before) ∧ counts = (before.okCount, before.errorCount + 1))

variable {master before after : Master ε}

theorem Expected.exchanges (expected : Expected master) : Exchanges master := by
  obtain ⟨wkc, returned⟩ := expected
  exact ⟨wkc, wkc, returned⟩

theorem Returns.unique {first second wkc expected : Int} (left : Returns master first second)
    (right : Returns master wkc expected) : first = wkc ∧ second = expected := by
  obtain ⟨timeout, engine, _, timed, exchanged, asked⟩ := left
  obtain ⟨_, _, _, timedToo, exchangedToo, askedToo⟩ := right
  rw [timed] at timedToo
  cases timedToo
  rw [exchanged] at exchangedToo
  cases exchangedToo
  rw [asked] at askedToo
  cases askedToo
  exact ⟨rfl, rfl⟩

/-- What an exchange asks of the engine before it is counted: the working counter, and the
expected one. -/
def measured : Action (Master ε) (Int × Int) := do
  let timeout ← Action.ofAccident (← get).config.recvTimeout
  let wkc ← ask (Engine.exchange (.real timeout))
  modify fun master => { master with lastWkc := wkc }
  let expected ← ask Engine.expectedWkc
  return (wkc, expected)

/-- Count an exchange by its working counter. -/
def tally (wkc expected : Int) : Action (Master ε) Int := do
  if wkc = expected then modify fun master => { master with okCount := master.okCount + 1 }
  else modify fun master => { master with errorCount := master.errorCount + 1 }
  return wkc

theorem exchange_eq :
    exchange (ε := ε) = measured >>= fun answer => tally answer.1 answer.2 := by
  simp only [exchange, measured, tally, bind_assoc, pure_bind]

theorem keepsCounts_measured : Moves (Keep counts) (measured (ε := ε)) := by
  refine Moves.bind Moves.get ?_
  intro master
  refine Moves.bind (Moves.ofAccident _) ?_
  intro timeout
  refine Moves.bind (moves_ask _) ?_
  intro wkc
  refine Moves.bind (Moves.modify fun _ => rfl) ?_
  intro _
  refine Moves.bind (moves_ask _) ?_
  intro expected
  exact Moves.pure _

theorem measured_eq_ok_iff {wkc expected : Int} :
    (∃ after, measured master = .ok (wkc, expected) after) ↔ Returns master wkc expected := by
  constructor
  · rintro ⟨after, answered⟩
    rw [measured, bind_of_ok (get_apply master)] at answered
    obtain ⟨timeout, _, timing, rest⟩ := bind_eq_ok_iff.mp answered
    obtain ⟨found, asked, exchanging, rest⟩ := bind_eq_ok_iff.mp rest
    obtain ⟨_, noted, noting, rest⟩ := bind_eq_ok_iff.mp rest
    obtain ⟨_, told, telling, returning⟩ := bind_eq_ok_iff.mp rest
    cases noting
    cases returning
    cases timed : master.config.recvTimeout with
    | error accident =>
        rw [timed] at timing
        cases timing
    | ok seconds =>
        rw [timed] at timing
        cases timing
        obtain ⟨engine, exchanged, rfl⟩ := exists_of_ask_ok exchanging
        obtain ⟨later, expects, rfl⟩ := exists_of_ask_ok telling
        exact ⟨_, engine, later, timed, exchanged, expects⟩
  · rintro ⟨timeout, engine, later, timed, exchanged, expects⟩
    have timing : ofAccident master.config.recvTimeout master = .ok timeout master := by
      rw [timed]
      rfl
    rw [measured, bind_of_ok (get_apply master), bind_of_ok timing,
      bind_of_ok (ask_of_ok exchanged), bind_of_ok (modify_apply _ _),
      bind_of_ok (ask_of_ok expects)]
    exact ⟨_, rfl⟩

/-- How an exchange is counted. -/
inductive ExchangeCounted (master : Master ε) : EStateM.Result Fault (Master ε) Int → Prop
  | failed {fault : Fault} {after : Master ε} :
      ¬ Exchanges master → after.counts = master.counts →
      ExchangeCounted master (.error fault after)
  | expected {wkc : Int} {after : Master ε} :
      Expected master → after.counts = (master.okCount + 1, master.errorCount) →
      ExchangeCounted master (.ok wkc after)
  | unexpected {wkc : Int} {after : Master ε} :
      Exchanges master → ¬ Expected master →
      after.counts = (master.okCount, master.errorCount + 1) →
      ExchangeCounted master (.ok wkc after)

theorem exchange_counted (master : Master ε) : ExchangeCounted master (exchange master) := by
  have kept := keepsCounts_measured master
  rw [exchange_eq]
  cases answered : measured master with
  | error fault after =>
      rw [answered] at kept
      rw [bind_of_error answered]
      refine .failed ?_ kept
      rintro ⟨wkc, expected, returned⟩
      obtain ⟨_, succeeded⟩ := measured_eq_ok_iff.mpr returned
      rw [answered] at succeeded
      cases succeeded
  | ok answer between =>
      obtain ⟨wkc, expected⟩ := answer
      have returned : Returns master wkc expected := measured_eq_ok_iff.mp ⟨between, answered⟩
      have okEq : between.okCount = master.okCount := by
        rw [answered] at kept
        exact congrArg Prod.fst kept
      have errorEq : between.errorCount = master.errorCount := by
        rw [answered] at kept
        exact congrArg Prod.snd kept
      rw [bind_of_ok answered, tally]
      by_cases same : wkc = expected
      · subst same
        rw [if_pos rfl]
        exact .expected ⟨wkc, returned⟩ (by rw [← okEq, ← errorEq]; rfl)
      · rw [if_neg same]
        refine .unexpected ⟨wkc, expected, returned⟩ ?_ (by rw [← okEq, ← errorEq]; rfl)
        rintro ⟨other, returnedToo⟩
        obtain ⟨rfl, rfl⟩ := returned.unique returnedToo
        exact same rfl

/-- How a guarded cycle is counted: by its exchange, and as bad if it fails. -/
inductive CycleCounted (before : Master ε) (counts : Nat × Nat) : Prop
  | once : ¬ (Exchanges before ∧ ¬ Completes before) → CountedOnce before counts →
      CycleCounted before counts
  /-- The exchange returned what was expected, and a handle could not be updated. -/
  | good : Expected before → ¬ Completes before →
      counts = (before.okCount + 1, before.errorCount + 1) → CycleCounted before counts
  /-- The exchange returned something else, and a handle could not be updated. -/
  | bad : Exchanges before → ¬ Expected before → ¬ Completes before →
      counts = (before.okCount, before.errorCount + 2) → CycleCounted before counts

theorem CycleCounted.once_iff {counts : Nat × Nat} (counted : CycleCounted before counts) :
    (CountedOnce before counts ↔ ¬ (Exchanges before ∧ ¬ Completes before)) ∧
      (Exchanges before ∧ ¬ Completes before →
        counts.1 + counts.2 = before.okCount + before.errorCount + 2) := by
  cases counted with
  | once apart once => exact ⟨⟨fun _ => apart, fun _ => once⟩, fun both => absurd both apart⟩
  | good expected fails same =>
      subst same
      refine ⟨⟨?_, fun apart => absurd ⟨expected.exchanges, fails⟩ apart⟩, fun _ => by omega⟩
      rintro (⟨_, completes, _⟩ | ⟨_, same⟩)
      · exact absurd completes fails
      · simp at same
  | bad exchanges _ fails same =>
      subst same
      refine ⟨⟨?_, fun apart => absurd ⟨exchanges, fails⟩ apart⟩, fun _ => by omega⟩
      rintro (⟨_, completes, _⟩ | ⟨_, same⟩)
      · exact absurd completes fails
      · simp at same

theorem guardedCycle_of_ok {wkc : Int} (completed : cycle master = .ok wkc after) :
    guardedCycle master = .ok () after :=
  catching_of_ok (bind_of_ok completed)

/-- A cycle that fails does not fail the task, and is counted as bad. -/
theorem exists_guardedCycle_of_error {fault : Fault} (failed : cycle master = .error fault after) :
    ∃ guarded, guardedCycle master = .ok () guarded ∧
      guarded.counts = (after.counts.1, after.counts.2 + 1) := by
  rw [guardedCycle, catching_of_caught (bind_of_error failed) rfl]
  exact ⟨_, rfl, rfl⟩

def updateHandles (wkc : Int) : Action (Master ε) Int := do
  forPlaces updateHandle (registeredPlaces (← get))
  return wkc

theorem keepsCounts_updateHandles (wkc : Int) :
    Moves (Keep counts) (updateHandles (ε := ε) wkc) := by
  refine Moves.bind Moves.get ?_
  intro master
  refine Moves.bind (moves_forPlaces moves_updateHandle _) ?_
  intro _
  exact Moves.pure _

/-- The task goes on after any cycle, and the cycle is counted. -/
theorem guardedCycle_counted (master : Master ε) :
    ∃ after, guardedCycle master = .ok () after ∧ CycleCounted master after.counts := by
  have counted := exchange_counted master
  cases exchanged : exchange master with
  | error fault between =>
      rw [exchanged] at counted
      obtain ⟨none, same⟩ : ¬ Exchanges master ∧ between.counts = master.counts := by
        cases counted with
        | failed none same => exact ⟨none, same⟩
      obtain ⟨after, guarded, countsEq⟩ :=
        exists_guardedCycle_of_error (bind_of_error exchanged : cycle master = _)
      rw [same] at countsEq
      refine ⟨after, guarded, .once (fun both => none both.1) (.inr ⟨?_, countsEq⟩)⟩
      exact fun both => none both.1.exchanges
  | ok wkc between =>
      rw [exchanged] at counted
      have same : cycle master = updateHandles wkc between := bind_of_ok exchanged
      cases updated : updateHandles wkc between with
      | ok result after =>
          have kept : Keep counts between after := (keepsCounts_updateHandles wkc).of_ok updated
          rw [updated] at same
          have completes : Completes master := ⟨result, after, same⟩
          refine ⟨after, guardedCycle_of_ok same, .once (fun both => both.2 completes) ?_⟩
          cases counted with
          | expected expected countsEq =>
              exact .inl ⟨expected, completes, kept.trans countsEq⟩
          | unexpected _ unexpected countsEq =>
              exact .inr ⟨fun both => unexpected both.1, kept.trans countsEq⟩
      | error fault failed =>
          have kept : Keep counts between failed := (keepsCounts_updateHandles wkc).of_error updated
          rw [updated] at same
          have fails : ¬ Completes master := by
            rintro ⟨_, _, completed⟩
            rw [same] at completed
            cases completed
          obtain ⟨after, guarded, countsEq⟩ := exists_guardedCycle_of_error same
          refine ⟨after, guarded, ?_⟩
          rw [show failed.counts = between.counts from kept] at countsEq
          cases counted with
          | expected expected exchangeEq =>
              rw [exchangeEq] at countsEq
              exact .good expected fails countsEq
          | unexpected exchanges unexpected exchangeEq =>
              rw [exchangeEq] at countsEq
              exact .bad exchanges unexpected fails countsEq

/-- Wait for the next tick, unless it is missed; the result is the tick and the wait. -/
def pace (tick : Binary64) : Action (Master ε) (Binary64 × List Binary64) := do
  let tick := tick.add (← Action.ofAccident (← get).config.cycleTime)
  let now := Engine.now (← get).engine
  let pause := tick.sub now
  if Binary64.zero.lt pause then
    changeEngine (Engine.wait · pause)
    return (tick, [pause])
  else return (now, [])

def iteration (tick : Binary64) : Action (Master ε) (Binary64 × List Binary64) := do
  guardedCycle
  pace tick

theorem loopFrom_succ (cycles : Nat) (tick : Binary64) :
    loopFrom (ε := ε) (cycles + 1) tick =
      iteration tick >>= fun paced =>
        loopFrom cycles paced.1 >>= fun more => pure (paced.2 ++ more) := by
  simp only [loopFrom, iteration, pace, bind_assoc]
  refine bind_congr fun _ => bind_congr fun master => bind_congr fun seconds =>
    bind_congr fun later => ?_
  split
  · simp only [bind_assoc, pure_bind, List.cons_append, List.nil_append]
  · simp only [pure_bind, List.nil_append, bind_pure]

/-- After some cycles the task goes on with one more iteration. -/
theorem exists_loopFrom_succ {cycles : Nat} {tick : Binary64} {waits : List Binary64}
    (ran : loopFrom cycles tick master = .ok waits before) :
    ∃ next, loopFrom (cycles + 1) tick master =
      (iteration next >>= fun paced => pure (waits ++ paced.2)) before := by
  induction cycles generalizing tick master waits with
  | zero =>
      cases ran
      refine ⟨tick, ?_⟩
      rw [loopFrom_succ]
      simp only [loopFrom, pure_bind, List.append_nil, List.nil_append]
  | succ cycles ih =>
      rw [loopFrom_succ] at ran
      obtain ⟨paced, between, iterated, rest⟩ := bind_eq_ok_iff.mp ran
      obtain ⟨more, _, later, returned⟩ := bind_eq_ok_iff.mp rest
      cases returned
      obtain ⟨next, goesOn⟩ := ih later
      refine ⟨next, ?_⟩
      rw [loopFrom_succ, bind_of_ok iterated, bind_congr_start goesOn]
      simp only [bind_assoc, pure_bind, List.append_assoc]

theorem keepsCounts_pace (tick : Binary64) : Moves (Keep counts) (pace (ε := ε) tick) := by
  refine Moves.bind Moves.get ?_
  intro master
  refine Moves.bind (Moves.ofAccident _) ?_
  intro seconds
  refine Moves.bind Moves.get ?_
  intro later
  dsimp only
  split
  · refine Moves.bind (moves_changeEngine _) ?_
    intro _
    exact Moves.pure _
  · exact Moves.pure _

/-- The task waits for its next tick unless the configured cycle is no number. -/
theorem exists_pace_iff (tick : Binary64) :
    (∃ paced after, pace tick master = .ok paced after) ↔
      ∃ seconds, master.config.cycleTime = .ok seconds := by
  rw [pace, bind_of_ok (get_apply master)]
  cases timed : master.config.cycleTime with
  | error accident =>
      constructor
      · rintro ⟨paced, after, succeeded⟩
        cases succeeded
      · rintro ⟨seconds, same⟩
        cases same
  | ok seconds =>
      refine ⟨fun _ => ⟨seconds, rfl⟩, fun _ => ?_⟩
      have timing : ofAccident (.ok seconds) master = .ok seconds master := rfl
      rw [bind_of_ok timing, bind_of_ok (get_apply master)]
      split
      · exact ⟨_, _, rfl⟩
      · exact ⟨_, _, rfl⟩

/-- Each iteration of the task, after any number of cycles, is counted once exactly if no handle
fails to be updated after an exchange that returned; otherwise it is counted twice.  The task goes
on after any cycle, unless the configured cycle is no number. -/
theorem loop_accounting {cycles : Nat} {waits : List Binary64}
    (ran : loop cycles master = .ok waits before) :
    (CountedOnce before (final (loop (cycles + 1) master)).counts ↔
        ¬ (Exchanges before ∧ ¬ Completes before)) ∧
      (Exchanges before ∧ ¬ Completes before →
        (final (loop (cycles + 1) master)).okCount + (final (loop (cycles + 1) master)).errorCount =
          before.okCount + before.errorCount + 2) ∧
      ((∃ more after, loop (cycles + 1) master = .ok more after) ↔
        ∃ seconds, before.config.cycleTime = .ok seconds) := by
  obtain ⟨next, goesOn⟩ := exists_loopFrom_succ ran
  obtain ⟨cycled, guarded, counted⟩ := guardedCycle_counted before
  have step : loop (cycles + 1) master =
      (pace next >>= fun paced => pure (waits ++ paced.2)) cycled := by
    have start : loop (cycles + 1) master =
        loopFrom (cycles + 1) (Engine.now master.engine) master := rfl
    rw [start, goesOn, iteration, bind_assoc, bind_of_ok guarded]
  have countsEq : (final (loop (cycles + 1) master)).counts = cycled.counts := by
    rw [step]
    exact (keepsCounts_pace next).bind (fun _ => Moves.pure _) cycled
  have configEq : cycled.config = before.config := by
    have kept : Keep config before cycled := moves_guardedCycle.of_ok guarded
    exact kept
  obtain ⟨once, twice⟩ := counted.once_iff
  rw [countsEq]
  refine ⟨once, ?_, ?_⟩
  · intro both
    rw [← twice both, ← countsEq]
    rfl
  · rw [← configEq, ← exists_pace_iff next, step]
    constructor
    · rintro ⟨more, after, succeeded⟩
      obtain ⟨paced, between, waited, _⟩ := bind_eq_ok_iff.mp succeeded
      exact ⟨paced, between, waited⟩
    · rintro ⟨paced, after, waited⟩
      exact ⟨_, after, bind_of_ok waited⟩

/-- On a bus with a write in a queue to an entry that its map does not have, the first iteration is
counted as good and as bad, and the second one, with nothing left in the queue, as good only. -/
theorem loop_accounting_hastyMaster :
    ∃ first second waits more,
      loop 1 hastyMaster = .ok waits first ∧ loop 2 hastyMaster = .ok more second ∧
      hastyMaster.opened = true ∧ (Exchanges hastyMaster ∧ ¬ Completes hastyMaster) ∧
      ¬ CountedOnce hastyMaster first.counts ∧ first.counts = (1, 1) ∧
      CountedOnce first second.counts ∧ second.counts = (2, 1) := by
  have counted : (final (loop 1 hastyMaster)).counts = (1, 1) ∧
      (final (loop 2 hastyMaster)).counts = (2, 1) := by
    decide +kernel
  have timed {after : Master MemoryEngine} (configEq : after.config = hastyMaster.config) :
      ∃ seconds, after.config.cycleTime = .ok seconds := by
    have numeric : hastyMaster.config.cycleTime.toOption.isSome = true := by decide +kernel
    rw [configEq]
    cases outcome : hastyMaster.config.cycleTime with
    | ok seconds => exact ⟨seconds, rfl⟩
    | error accident =>
        rw [outcome] at numeric
        cases numeric
  have start : loop 0 hastyMaster = .ok [] hastyMaster := rfl
  obtain ⟨once, _, goesOn⟩ := loop_accounting start
  obtain ⟨waits, first, looped⟩ := goesOn.mpr (timed rfl)
  have configKept : Keep config hastyMaster first := (moves_loop 1).of_ok looped
  obtain ⟨onceMore, twice, goesFurther⟩ := loop_accounting looped
  obtain ⟨more, second, loopedOn⟩ := goesFurther.mpr (timed configKept)
  rw [looped] at once
  rw [loopedOn] at onceMore twice
  rw [looped, loopedOn] at counted
  obtain ⟨firstCounts, secondCounts⟩ := counted
  have notOnce : ¬ CountedOnce hastyMaster first.counts := by
    have zero : hastyMaster.okCount = 0 ∧ hastyMaster.errorCount = 0 := by decide +kernel
    have firstEq : first.counts = (1, 1) := firstCounts
    rw [firstEq, CountedOnce, zero.1, zero.2]
    simp
  have both : Exchanges hastyMaster ∧ ¬ Completes hastyMaster :=
    Classical.byContradiction fun apart => notOnce (once.mpr apart)
  refine ⟨first, second, waits, more, looped, loopedOn, by decide +kernel, both, notOnce,
    firstCounts, onceMore.mpr ?_, secondCounts⟩
  intro bothAgain
  have sums := twice bothAgain
  simp only [final, counts, Prod.mk.injEq] at firstCounts secondCounts sums
  omega

end Master

end Fieldbus
