import Fieldbus.Proofs.Benchmark.Tallies
import Fieldbus.Proofs.Master.Complete

/-!
# Runs of a benchmark

A benchmark makes the reads of its schedule one after the other, each in the state that the one
before left, whether they return or fail with a fault of the library.  Its timings account for
these reads, and unless it was told to stop, it warns of each target with failures.
-/

namespace Fieldbus

namespace Master

variable {ε : Type}

/-- A master with more notices. -/
def noting (master : Master ε) (notices : List Notice) : Master ε :=
  { master with session :=
      { master.session with notices := master.session.notices ++ notices.toArray } }

@[simp]
theorem noting_nil (master : Master ε) : master.noting [] = master := by
  rw [noting, Array.append_empty]

theorem noting_noting (master : Master ε) (notices more : List Notice) :
    (master.noting notices).noting more = master.noting (notices ++ more) := by
  rw [noting, noting, noting, ← List.append_toArray, Array.append_assoc]

theorem warn_apply (source : Source) (text : Text) (master : Master ε) :
    inSession (Session.warn source text) master =
      .ok () (master.noting [⟨.warning, source, text⟩]) :=
  rfl

end Master

namespace Benchmark

section Warnings

variable {ε : Type}

/-- What is reported of a target with failures. -/
def failureNotice (benchmark : Benchmark) (timing : Timing) : Notice :=
  ⟨.warning, .benchmark,
    s!"Slave {benchmark.slave}: {timing.errors}/{benchmark.rounds} reads of " ++
      s!"{timing.target.text} failed, last: " ++ timing.lastError⟩

def failureNotices (benchmark : Benchmark) (timings : List Timing) : List Notice :=
  (timings.filter (·.errors ≠ 0)).map benchmark.failureNotice

theorem warnFailures_apply (benchmark : Benchmark) (timings : List Timing) (master : Master ε) :
    benchmark.warnFailures timings master =
      .ok () (master.noting (benchmark.failureNotices timings)) := by
  induction timings generalizing master with
  | nil => exact congrArg (EStateM.Result.ok ()) master.noting_nil.symm
  | cons timing rest ih =>
      rw [warnFailures, failureNotices]
      by_cases failed : timing.errors ≠ 0
      · rw [if_pos failed, List.filter_cons_of_pos (by simpa using failed), List.map_cons,
          Action.bind_of_ok (Master.warn_apply _ _ master)]
        refine (ih _).trans ?_
        rw [Master.noting_noting]
        rfl
      · rw [if_neg failed, List.filter_cons_of_neg (by simpa using failed)]
        exact ih master

/-- After its rounds a benchmark reports the failures, unless it was told to stop. -/
theorem close_apply (benchmark : Benchmark) (progress : Progress) (master : Master ε) :
    (do
      if !progress.aborted then benchmark.warnFailures progress.timings
      return progress.timings : Action (Master ε) (List Timing)) master =
      .ok progress.timings (master.noting
        (if progress.aborted then [] else benchmark.failureNotices progress.timings)) := by
  cases progress.aborted with
  | true =>
      rw [if_pos rfl, Master.noting_nil]
      rfl
  | false => exact Action.bind_of_ok (benchmark.warnFailures_apply progress.timings master)

end Warnings

variable {ε : Type} [Engine ε] {slave : Int} {master between after : Master ε}
  {budget : Budget} {target : Target} {timing : Timing} {timings : List Timing}
  {made more : List Attempt} {attempt : Attempt}

/-- Reads that are made one after the other and lead from one state to another.  Each returned or
failed with a fault of the library. -/
inductive Attempts (slave : Int) : Master ε → List Attempt → Master ε → Prop
  | nil (master : Master ε) : Attempts slave master [] master
  | returned {master between after : Master ε} {target : Target} {reading : Reading}
      {more : List Attempt} (answer : read slave target master = .ok reading between)
      (rest : Attempts slave between more after) :
      Attempts slave master (⟨target, .ok (reading,
        milliseconds (Engine.now master.engine) (Engine.now between.engine))⟩ :: more) after
  | failed {master between after : Master ε} {target : Target} {fault : Fault}
      {more : List Attempt} (answer : read slave target master = .error fault between)
      (known : fault.isLibrary = true) (rest : Attempts slave between more after) :
      Attempts slave master (⟨target, .error fault⟩ :: more) after

theorem attempts_nil_iff : Attempts slave master [] after ↔ master = after := by
  constructor
  · rintro ⟨⟩
    rfl
  · rintro rfl
    exact .nil master

theorem attempts_cons_iff :
    Attempts slave master (attempt :: more) after ↔
      ∃ between, Attempts slave master [attempt] between ∧ Attempts slave between more after := by
  constructor
  · rintro (_ | ⟨answer, rest⟩ | ⟨answer, known, rest⟩)
    · exact ⟨_, .returned answer (.nil _), rest⟩
    · exact ⟨_, .failed answer known (.nil _), rest⟩
  · rintro ⟨between, _ | ⟨answer, last⟩ | ⟨answer, known, last⟩, rest⟩
    · obtain rfl := attempts_nil_iff.mp last
      exact .returned answer rest
    · obtain rfl := attempts_nil_iff.mp last
      exact .failed answer known rest

theorem attempts_append_iff :
    Attempts slave master (made ++ more) after ↔
      ∃ between, Attempts slave master made between ∧ Attempts slave between more after := by
  induction made generalizing master with
  | nil =>
      constructor
      · exact fun rest => ⟨master, .nil master, rest⟩
      · rintro ⟨between, none, rest⟩
        obtain rfl := attempts_nil_iff.mp none
        exact rest
  | cons attempt made ih =>
      rw [List.cons_append, attempts_cons_iff]
      constructor
      · rintro ⟨next, first, rest⟩
        obtain ⟨between, made, more⟩ := ih.mp rest
        exact ⟨between, attempts_cons_iff.mpr ⟨next, first, made⟩, more⟩
      · rintro ⟨between, made, more⟩
        obtain ⟨next, first, rest⟩ := attempts_cons_iff.mp made
        exact ⟨next, first, ih.mpr ⟨between, rest, more⟩⟩

theorem exists_attempts_none_iff {holds : List Attempt → Prop} :
    (∃ made, Attempts slave master made after ∧ made.map Attempt.target = [] ∧ holds made) ↔
      master = after ∧ holds [] := by
  constructor
  · rintro ⟨made, attempts, none, held⟩
    obtain rfl := List.map_eq_nil_iff.mp none
    exact ⟨attempts_nil_iff.mp attempts, held⟩
  · rintro ⟨rfl, held⟩
    exact ⟨[], .nil master, List.map_nil, held⟩

/-- Reading the target of a timing once makes one read and records what came of it. -/
theorem sample_eq_ok_iff {later : Timing} :
    sample slave timing master = .ok later after ↔
      ∃ outcome, Attempts slave master [⟨timing.target, outcome⟩] after ∧
        later = timing.record outcome := by
  have opened : sample slave timing master =
      Action.catching Fault.isLibrary
        (do
          let reading ← read slave timing.target
          let stop := Engine.now (← get).engine
          return { timing with
            value := reading
            timesMs := timing.timesMs ++ [milliseconds (Engine.now master.engine) stop] })
        (fun fault => return { timing with
          errors := timing.errors + 1
          lastError := fault.message }) master := rfl
  rw [opened]
  constructor
  · rw [Action.catching_eq_ok_iff]
    rintro (returned | ⟨fault, between, failed, known, handled⟩)
    · obtain ⟨reading, between, answer, rest⟩ := Action.bind_eq_ok_iff.mp returned
      cases rest
      exact ⟨_, .returned answer (.nil _), rfl⟩
    · cases handled
      rcases Action.bind_eq_error_iff.mp failed with answer | ⟨reading, next, _, rest⟩
      · exact ⟨_, .failed answer known (.nil _), rfl⟩
      · cases rest
  · rintro ⟨outcome, _ | ⟨answer, last⟩ | ⟨answer, known, last⟩, rfl⟩
    · obtain rfl := attempts_nil_iff.mp last
      refine Action.catching_of_ok ?_
      rw [Action.bind_of_ok answer]
      rfl
    · obtain rfl := attempts_nil_iff.mp last
      rw [Action.catching_of_caught (Action.bind_of_error answer) known]
      rfl

theorem runRound_cons (timing : Timing) (rest : List Timing)
    (allowed : budget.stops 1 = false) :
    runRound (ε := ε) slave budget (timing :: rest) = do
      let timing ← sample slave timing
      let progress ← runRound slave (budget.spend 1) rest
      return { progress with timings := timing :: progress.timings } := by
  rcases budget with _ | _ | count
  · rfl
  · cases allowed
  · rfl

theorem runRound_eq_ok_iff {progress : Progress} (nodup : (timings.map Timing.target).Nodup) :
    runRound slave budget timings master = .ok progress after ↔
      ∃ made, Attempts slave master made after ∧
        made.map Attempt.target = budget.allow (timings.map Timing.target) ∧
        progress = ⟨timings.map (·.tally made), budget.spend timings.length,
          budget.stops timings.length⟩ := by
  induction timings generalizing budget master progress with
  | nil =>
      rw [runRound, Action.pure_eq_ok_iff, List.map_nil, Budget.allow_nil,
        exists_attempts_none_iff, Timing.map_tally_nil, List.length_nil, Budget.spend_zero,
        Budget.stops_zero, and_comm, eq_comm (a := progress)]
  | cons timing rest ih =>
      rw [List.map_cons, List.nodup_cons] at nodup
      cases stopped : budget.stops 1 with
      | true =>
          obtain rfl := Budget.eq_zero_of_stops_one stopped
          have stays : runRound slave (some 0) (timing :: rest) master =
              .ok ⟨timing :: rest, some 0, true⟩ master := rfl
          have left : Budget.spend (some 0) (timing :: rest).length = some 0 :=
            congrArg some (Nat.zero_sub _)
          have short : Budget.stops (some 0) (timing :: rest).length = true :=
            decide_eq_true (Nat.succ_pos rest.length)
          have nothing : Budget.allow (some 0) ((timing :: rest).map Timing.target) = [] := rfl
          rw [stays, left, short, nothing, exists_attempts_none_iff, Timing.map_tally_nil,
            EStateM.Result.ok.injEq, and_comm, eq_comm (a := progress)]
      | false =>
          have planned : budget.stops (rest.length + 1) = (budget.spend 1).stops rest.length := by
            rw [Nat.add_comm, Budget.stops_add stopped]
          have left : (budget.spend 1).spend rest.length = budget.spend (rest.length + 1) := by
            rw [Budget.spend_spend, Nat.add_comm]
          rw [runRound_cons timing rest stopped, List.map_cons, Budget.allow_cons _ stopped,
            List.length_cons, planned, ← left]
          constructor
          · intro ran
            obtain ⟨sampled, between, first, more⟩ := Action.bind_eq_ok_iff.mp ran
            obtain ⟨outcome, attempted, rfl⟩ := sample_eq_ok_iff.mp first
            obtain ⟨inner, later, round, last⟩ := Action.bind_eq_ok_iff.mp more
            cases last
            obtain ⟨made, attempts, targets, rfl⟩ := (ih nodup.2).mp round
            refine ⟨⟨timing.target, outcome⟩ :: made,
              attempts_cons_iff.mpr ⟨between, attempted, attempts⟩, ?_, ?_⟩
            · rw [List.map_cons, targets]
            · rw [Timing.map_tally_cons nodup.1 targets]
          · rintro ⟨_ | ⟨⟨target, outcome⟩, made⟩, attempts, targets, rfl⟩
            · cases targets
            · rw [List.map_cons, List.cons.injEq] at targets
              obtain ⟨rfl, targets⟩ := targets
              obtain ⟨between, attempted, attempts⟩ := attempts_cons_iff.mp attempts
              rw [Action.bind_of_ok (sample_eq_ok_iff.mpr ⟨outcome, attempted, rfl⟩),
                Action.bind_of_ok ((ih nodup.2).mpr ⟨made, attempts, targets, rfl⟩),
                Timing.map_tally_cons nodup.1 targets]
              rfl

theorem runRounds_eq_ok_iff {rounds : Nat} {progress : Progress}
    (nodup : (timings.map Timing.target).Nodup) :
    runRounds slave rounds budget timings master = .ok progress after ↔
      ∃ made, Attempts slave master made after ∧
        made.map Attempt.target = budget.allow (plan rounds (timings.map Timing.target)) ∧
        progress = ⟨timings.map (·.tally made), budget.spend (rounds * timings.length),
          budget.stops (rounds * timings.length)⟩ := by
  induction rounds generalizing budget timings master with
  | zero =>
      rw [runRounds, plan_zero, Budget.allow_nil, exists_attempts_none_iff, Timing.map_tally_nil,
        Nat.zero_mul, Budget.spend_zero, Budget.stops_zero, Action.pure_eq_ok_iff, and_comm,
        eq_comm (a := progress)]
  | succ rounds ih =>
      have total : (rounds + 1) * timings.length = timings.length + rounds * timings.length := by
        rw [Nat.succ_mul, Nat.add_comm]
      have length : (timings.map Timing.target).length = timings.length := List.length_map _
      rw [plan_succ, Budget.allow_append, length, total, runRounds]
      cases stopped : budget.stops timings.length with
      | true =>
          obtain ⟨still, left⟩ := Budget.stops_of_stops stopped (rounds * timings.length)
          rw [Budget.allow_of_stops stopped, List.append_nil, left, still]
          constructor
          · intro ran
            obtain ⟨first, between, round, rest⟩ := Action.bind_eq_ok_iff.mp ran
            obtain ⟨made, attempts, targets, rfl⟩ := (runRound_eq_ok_iff nodup).mp round
            rw [stopped] at rest
            cases rest
            exact ⟨made, attempts, targets, rfl⟩
          · rintro ⟨made, attempts, targets, rfl⟩
            rw [Action.bind_of_ok ((runRound_eq_ok_iff nodup).mpr ⟨made, attempts, targets, rfl⟩),
              stopped]
            rfl
      | false =>
          rw [← Budget.spend_spend, Budget.stops_add stopped]
          have later (made : List Attempt) (between : Master ε) :
              runRounds slave rounds (budget.spend timings.length) (timings.map (·.tally made))
                between = .ok progress after ↔ _ :=
            ih (by rwa [Timing.map_target_tally])
          simp only [Timing.map_target_tally, List.length_map, Timing.map_tally_append] at later
          constructor
          · intro ran
            obtain ⟨first, between, round, rest⟩ := Action.bind_eq_ok_iff.mp ran
            obtain ⟨made, attempts, targets, rfl⟩ := (runRound_eq_ok_iff nodup).mp round
            rw [stopped, if_neg Bool.false_ne_true] at rest
            obtain ⟨more, others, remaining, rfl⟩ := (later made between).mp rest
            refine ⟨made ++ more, attempts_append_iff.mpr ⟨between, attempts, others⟩, ?_, rfl⟩
            rw [List.map_append, targets, remaining]
          · rintro ⟨_, attempts, targets, rfl⟩
            obtain ⟨made, more, rfl, targets, remaining⟩ := List.map_eq_append_iff.mp targets
            obtain ⟨between, attempts, others⟩ := attempts_append_iff.mp attempts
            rw [Action.bind_of_ok ((runRound_eq_ok_iff nodup).mpr ⟨made, attempts, targets, rfl⟩),
              stopped, if_neg Bool.false_ne_true]
            exact (later made between).mpr ⟨more, others, remaining, rfl⟩

section Start

variable {targets : List (Target × ReportedName)}

theorem map_target_start (targets : List (Target × ReportedName)) :
    (start targets).map Timing.target = distinct targets := by
  rw [start, List.map_map, distinct, ← Table.keys_ofList]
  rfl

theorem nodup_distinct (targets : List (Target × ReportedName)) : (distinct targets).Nodup := by
  rw [distinct, ← Table.keys_ofList]
  exact Table.nodup_ofList targets

theorem length_start (targets : List (Target × ReportedName)) :
    (start targets).length = (distinct targets).length := by
  rw [← map_target_start, List.length_map]

/-- A run makes the reads of its schedule that are allowed, and unless it is told to stop, it
reports the failures. -/
theorem run_eq_ok_iff {benchmark : Benchmark} {final : Master ε}
    (resolved : benchmark.resolve master.dictionary = .ok targets) :
    benchmark.run budget master = .ok timings final ↔
      ∃ made after, Attempts benchmark.slave master made after ∧
        made.map Attempt.target =
          budget.allow (plan benchmark.rounds.toNat (distinct targets)) ∧
        timings = (start targets).map (·.tally made) ∧
        final = after.noting
          (if budget.stops (benchmark.rounds.toNat * (distinct targets).length) then []
            else benchmark.failureNotices timings) := by
  have nodup : ((start targets).map Timing.target).Nodup := by
    rw [map_target_start]
    exact nodup_distinct targets
  have opened : benchmark.run budget master =
      (runRounds benchmark.slave benchmark.rounds.toNat budget (start targets) >>=
        fun progress => do
          if !progress.aborted then benchmark.warnFailures progress.timings
          return progress.timings) master := by
    rw [run, Action.bind_of_ok (Action.get_apply master), resolved]
    rfl
  rw [opened, Action.bind_eq_ok_iff]
  constructor
  · rintro ⟨progress, after, ran, rest⟩
    obtain ⟨made, attempts, reads, rfl⟩ := (runRounds_eq_ok_iff nodup).mp ran
    rw [map_target_start] at reads
    rw [close_apply, length_start] at rest
    cases rest
    exact ⟨made, after, attempts, reads, rfl, rfl⟩
  · rintro ⟨made, after, attempts, reads, rfl, rfl⟩
    rw [← map_target_start] at reads
    refine ⟨_, after, (runRounds_eq_ok_iff nodup).mpr ⟨made, attempts, reads, rfl⟩, ?_⟩
    rw [close_apply, length_start]

end Start

/-- Whether reads that are made one after the other return or fail with faults of the
library. -/
def answered (slave : Int) : List Target → Master ε → Bool
  | [], _ => true
  | target :: more, master =>
      match read slave target master with
      | .ok _ between => answered slave more between
      | .error fault between => fault.isLibrary && answered slave more between

theorem answered_iff {reads : List Target} :
    answered slave reads master = true ↔
      ∃ made after, Attempts slave master made after ∧ made.map Attempt.target = reads := by
  induction reads generalizing master with
  | nil => exact ⟨fun _ => ⟨[], master, .nil master, rfl⟩, fun _ => rfl⟩
  | cons target more ih =>
      rw [answered]
      constructor
      · intro known
        cases outcome : read slave target master with
        | ok reading between =>
            rw [outcome] at known
            obtain ⟨made, after, attempts, rfl⟩ := ih.mp known
            exact ⟨_, after, .returned outcome attempts, rfl⟩
        | error fault between =>
            rw [outcome, Bool.and_eq_true] at known
            obtain ⟨made, after, attempts, rfl⟩ := ih.mp known.2
            exact ⟨_, after, .failed outcome known.1 attempts, rfl⟩
      · rintro ⟨made, after, attempts, targets⟩
        cases attempts with
        | nil => cases targets
        | returned answer rest =>
            rw [List.map_cons, List.cons.injEq] at targets
            obtain ⟨rfl, targets⟩ := targets
            simp only [answer]
            exact ih.mpr ⟨_, after, rest, targets⟩
        | failed answer known rest =>
            rw [List.map_cons, List.cons.injEq] at targets
            obtain ⟨rfl, targets⟩ := targets
            simp only [answer, known, Bool.true_and]
            exact ih.mpr ⟨_, after, rest, targets⟩

/-- What the timings of a benchmark say of the reads that it made. -/
structure Balanced (benchmark : Benchmark) (stopped : Bool) (made : List Attempt)
    (timings : List Timing) : Prop where
  accounts : ∀ timing ∈ timings, timing.Accounts (outcomesOf timing.target made)
  total : ∀ timing ∈ timings,
    timing.attempts = (made.map Attempt.target).count timing.target
  full : stopped = false → ∀ timing ∈ timings, timing.attempts = benchmark.rounds.toNat
  even : ∀ timing ∈ timings, ∀ other ∈ timings, timing.attempts ≤ other.attempts + 1

section Accounts

variable {benchmark : Benchmark} {targets : List (Target × ReportedName)}

theorem balanced_tally
    (reads : made.map Attempt.target =
      budget.allow (plan benchmark.rounds.toNat (distinct targets))) :
    benchmark.Balanced (budget.stops (benchmark.rounds.toNat * (distinct targets).length)) made
      ((start targets).map (·.tally made)) := by
  have accounts : ∀ timing ∈ (start targets).map (·.tally made),
      timing.Accounts (outcomesOf timing.target made) := by
    intro timing member
    obtain ⟨first, started, rfl⟩ := List.mem_map.mp member
    obtain ⟨pair, _, rfl⟩ := List.mem_map.mp started
    rw [Timing.target_tally]
    exact Timing.accounts_tally pair.1 pair.2 made
  have total (timing) (member : timing ∈ (start targets).map (·.tally made)) :=
    (accounts timing member).total
  have isTarget : ∀ timing ∈ (start targets).map (·.tally made),
      timing.target ∈ distinct targets := by
    intro timing member
    rw [← map_target_start, ← Timing.map_target_tally _ made]
    exact List.mem_map_of_mem member
  refine ⟨accounts, total, ?_, ?_⟩
  · intro runs timing member
    rw [← length_plan] at runs
    rw [total timing member, reads, Budget.allow_of_not_stops runs,
      count_plan (nodup_distinct targets) (isTarget timing member)]
  · intro timing member other otherMember
    rw [total timing member, total other otherMember, reads]
    exact_mod_cast count_allow_plan_le budget (nodup_distinct targets) (isTarget timing member)
      (isTarget other otherMember)

/-- A benchmark whose targets resolve returns exactly if the reads that are allowed, of its
distinct targets in turn for all rounds, return or fail with faults of the library.  Then these
are the reads that it made, its timings account for them, and unless it was told to stop, the
targets with failures are reported. -/
theorem run_accounts (resolved : benchmark.resolve master.dictionary = .ok targets)
    (budget : Budget) :
    ((∃ timings final, benchmark.run budget master = .ok timings final) ↔
      answered benchmark.slave (budget.allow (plan benchmark.rounds.toNat (distinct targets)))
        master = true) ∧
    ∀ timings final, benchmark.run budget master = .ok timings final →
      ∃ made after, Attempts benchmark.slave master made after ∧
        made.map Attempt.target =
          budget.allow (plan benchmark.rounds.toNat (distinct targets)) ∧
        timings.map Timing.target = distinct targets ∧
        benchmark.Balanced (budget.stops (benchmark.rounds.toNat * (distinct targets).length))
          made timings ∧
        final = after.noting
          (if budget.stops (benchmark.rounds.toNat * (distinct targets).length) then []
            else benchmark.failureNotices timings) := by
  constructor
  · rw [answered_iff]
    constructor
    · rintro ⟨timings, final, ran⟩
      obtain ⟨made, after, attempts, reads, _⟩ := (run_eq_ok_iff resolved).mp ran
      exact ⟨made, after, attempts, reads⟩
    · rintro ⟨made, after, attempts, reads⟩
      exact ⟨_, _, (run_eq_ok_iff resolved).mpr ⟨made, after, attempts, reads, rfl, rfl⟩⟩
  · intro timings final ran
    obtain ⟨made, after, attempts, reads, rfl, rfl⟩ := (run_eq_ok_iff resolved).mp ran
    refine ⟨made, after, attempts, reads, ?_, balanced_tally reads, rfl⟩
    rw [Timing.map_target_tally, map_target_start]

/-- A benchmark that names one of two entries twice; the other cannot be decoded. -/
def vendorBenchmark : Benchmark where
  slave := 0
  targets := [.object 0x2000, .entry ⟨0x2000, 1⟩, .entry ⟨0x2000, 2⟩]
  complete := false
  rounds := 2

def vendorTargets : List (Target × ReportedName) :=
  [(.entry ⟨0x2000, 2⟩, .text []), (.entry ⟨0x2000, 1⟩, .text []),
    (.entry ⟨0x2000, 2⟩, .text [])]

/-- That benchmark, told to stop before the last of its four reads. -/
theorem run_accounts_vendor :
    vendorBenchmark.resolve Master.vendorMaster.dictionary = .ok vendorTargets ∧
      ∃ timings made after,
        vendorBenchmark.run (some 3) Master.vendorMaster = .ok timings after ∧
        Attempts 0 Master.vendorMaster made after ∧
        made.map Attempt.target =
          [.entry ⟨0x2000, 2⟩, .entry ⟨0x2000, 1⟩, .entry ⟨0x2000, 2⟩] ∧
        timings.map Timing.target = [.entry ⟨0x2000, 2⟩, .entry ⟨0x2000, 1⟩] ∧
        vendorBenchmark.Balanced true made timings := by
  have resolved : vendorBenchmark.resolve Master.vendorMaster.dictionary = .ok vendorTargets := by
    apply Action.except_eq_ok_of_toOption
    decide +kernel
  have first : distinct vendorTargets = [.entry ⟨0x2000, 2⟩, .entry ⟨0x2000, 1⟩] := by
    decide
  obtain ⟨returns, accounts⟩ := run_accounts resolved (some 3)
  obtain ⟨timings, final, ran⟩ := returns.mpr (by decide +kernel)
  obtain ⟨made, after, attempts, reads, targets, balanced, rfl⟩ := accounts timings final ran
  rw [first] at reads targets balanced
  exact ⟨resolved, timings, made, after, ran, attempts, reads, targets, balanced⟩

end Accounts

end Benchmark

end Fieldbus
