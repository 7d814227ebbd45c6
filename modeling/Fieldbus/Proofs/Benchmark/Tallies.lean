import Fieldbus.Proofs.Benchmark.Schedule

/-!
# Tallies

What a timing says of the reads that were made of its target: how many returned and how many
failed, the last reading, and the message of the last fault.
-/

namespace Fieldbus

namespace Benchmark

/-- What came of a read: the reading with the milliseconds that it took, or the fault. -/
abbrev ReadOutcome := Except Fault (Reading × Binary64)

structure Attempt where
  target : Target
  outcome : ReadOutcome

/-- What came of the reads of one target. -/
def outcomesOf (target : Target) (made : List Attempt) : List ReadOutcome :=
  (made.filter (·.target = target)).map Attempt.outcome

def readings (outcomes : List ReadOutcome) : List Reading :=
  outcomes.filterMap fun outcome => match outcome with
    | .ok (reading, _) => some reading
    | .error _ => none

def faults (outcomes : List ReadOutcome) : List Fault :=
  outcomes.filterMap fun outcome => match outcome with
    | .ok _ => none
    | .error fault => some fault

variable {target : Target} {made more : List Attempt} {attempt : Attempt}

theorem outcomesOf_append (target : Target) (made more : List Attempt) :
    outcomesOf target (made ++ more) = outcomesOf target made ++ outcomesOf target more := by
  rw [outcomesOf, List.filter_append, List.map_append, outcomesOf, outcomesOf]

theorem outcomesOf_cons_self (target : Target) (outcome : ReadOutcome) (more : List Attempt) :
    outcomesOf target (⟨target, outcome⟩ :: more) = outcome :: outcomesOf target more := by
  rw [outcomesOf, List.filter_cons_of_pos (by simp), List.map_cons, outcomesOf]

theorem outcomesOf_cons_of_ne (different : attempt.target ≠ target) (more : List Attempt) :
    outcomesOf target (attempt :: more) = outcomesOf target more := by
  rw [outcomesOf, List.filter_cons_of_neg (by simpa using different), outcomesOf]

theorem outcomesOf_of_missing (missing : target ∉ made.map Attempt.target) :
    outcomesOf target made = [] := by
  have others : made.filter (·.target = target) = [] := by
    rw [List.filter_eq_nil_iff]
    intro attempt member same
    exact missing (List.mem_map.mpr ⟨attempt, member, of_decide_eq_true same⟩)
  rw [outcomesOf, others, List.map_nil]

theorem length_outcomesOf (target : Target) (made : List Attempt) :
    (outcomesOf target made).length = (made.map Attempt.target).count target := by
  rw [outcomesOf, List.length_map, ← List.countP_eq_length_filter, List.count, List.countP_map]
  rfl

theorem length_readings_add_faults (outcomes : List ReadOutcome) :
    (readings outcomes).length + (faults outcomes).length = outcomes.length := by
  induction outcomes with
  | nil => rfl
  | cons outcome more ih =>
      cases outcome with
      | ok pair =>
          show (readings more).length + 1 + (faults more).length = more.length + 1
          omega
      | error fault =>
          show (readings more).length + ((faults more).length + 1) = more.length + 1
          omega

end Benchmark

open Benchmark

namespace Timing

/-- The timing after one more read of its target. -/
def record (timing : Timing) : ReadOutcome → Timing
  | .ok (reading, elapsed) =>
      { timing with value := reading, timesMs := timing.timesMs ++ [elapsed] }
  | .error fault => { timing with errors := timing.errors + 1, lastError := fault.message }

/-- The timing after some reads, of which those of other targets leave it as it is. -/
def tally (timing : Timing) (made : List Attempt) : Timing :=
  (outcomesOf timing.target made).foldl record timing

/-- How many reads of its target a timing counts, whether they returned or failed. -/
def attempts (timing : Timing) : Int :=
  timing.count + timing.errors

/-- A timing accounts for what came of the reads of its target. -/
structure Accounts (timing : Timing) (outcomes : List ReadOutcome) : Prop where
  count : timing.count = (readings outcomes).length
  errors : timing.errors = (faults outcomes).length
  value : timing.value = (readings outcomes).getLast?.getD .none
  lastError : timing.lastError = ((faults outcomes).getLast?.map Fault.message).getD ""

variable {timing : Timing} {made more : List Attempt} {outcomes : List ReadOutcome}

@[simp]
theorem target_record (timing : Timing) (outcome : ReadOutcome) :
    (timing.record outcome).target = timing.target := by
  cases outcome <;> rfl

@[simp]
theorem target_foldl_record (timing : Timing) (outcomes : List ReadOutcome) :
    (outcomes.foldl record timing).target = timing.target := by
  induction outcomes generalizing timing with
  | nil => rfl
  | cons outcome more ih => rw [List.foldl_cons, ih, target_record]

@[simp]
theorem target_tally (timing : Timing) (made : List Attempt) :
    (timing.tally made).target = timing.target :=
  target_foldl_record timing _

theorem tally_append (timing : Timing) (made more : List Attempt) :
    timing.tally (made ++ more) = (timing.tally made).tally more := by
  rw [tally, outcomesOf_append, List.foldl_append, tally, target_tally, tally]

/-- A timing after a read of its target and reads of others. -/
theorem tally_cons_self (outcome : ReadOutcome)
    (missing : timing.target ∉ more.map Attempt.target) :
    timing.tally (⟨timing.target, outcome⟩ :: more) = timing.record outcome := by
  rw [tally, outcomesOf_cons_self, outcomesOf_of_missing missing]
  rfl

theorem tally_cons_of_ne {attempt : Attempt} (different : attempt.target ≠ timing.target)
    (more : List Attempt) : timing.tally (attempt :: more) = timing.tally more := by
  rw [tally, outcomesOf_cons_of_ne different, tally]

theorem Accounts.record (accounts : timing.Accounts outcomes) (outcome : ReadOutcome) :
    (timing.record outcome).Accounts (outcomes ++ [outcome]) := by
  have counted := accounts.count
  have failed := accounts.errors
  rw [Timing.count] at counted
  cases outcome with
  | ok pair =>
      have returns : readings (outcomes ++ [.ok pair]) = readings outcomes ++ [pair.1] :=
        List.filterMap_append
      have same : faults (outcomes ++ [.ok pair]) = faults outcomes := by
        rw [faults, List.filterMap_append]
        exact List.append_nil _
      refine ⟨?_, ?_, ?_, ?_⟩
      · rw [returns, List.length_append, ← counted]
        exact List.length_append
      · rw [same]
        exact failed
      · rw [returns, List.getLast?_concat]
        rfl
      · rw [same]
        exact accounts.lastError
  | error fault =>
      have fails : faults (outcomes ++ [.error fault]) = faults outcomes ++ [fault] :=
        List.filterMap_append
      have same : readings (outcomes ++ [.error fault]) = readings outcomes := by
        rw [readings, List.filterMap_append]
        exact List.append_nil _
      refine ⟨?_, ?_, ?_, ?_⟩
      · rw [same]
        exact accounts.count
      · rw [fails, List.length_append, Int.natCast_add, ← failed]
        rfl
      · rw [same]
        exact accounts.value
      · rw [fails, List.getLast?_concat]
        rfl

/-- A timing that started empty accounts for all that came of its reads. -/
theorem accounts_tally (target : Target) (name : ReportedName) (made : List Attempt) :
    ((start target name).tally made).Accounts (outcomesOf target made) := by
  rw [tally]
  show ((outcomesOf target made).foldl record (start target name)).Accounts _
  generalize outcomesOf target made = outcomes
  induction outcomes using List.reverseRecOn with
  | nil => exact ⟨rfl, rfl, rfl, rfl⟩
  | append_singleton outcomes outcome ih =>
      rw [List.foldl_concat]
      exact ih.record outcome

/-- What a timing accounts for are all reads of its target. -/
theorem Accounts.total (accounts : timing.Accounts (outcomesOf timing.target made)) :
    timing.attempts = (made.map Attempt.target).count timing.target := by
  rw [attempts, accounts.count, accounts.errors, ← Int.natCast_add, length_readings_add_faults,
    length_outcomesOf]

theorem map_tally_nil (timings : List Timing) : timings.map (·.tally []) = timings :=
  List.map_id timings

theorem map_target_tally (timings : List Timing) (made : List Attempt) :
    (timings.map (·.tally made)).map target = timings.map target := by
  rw [List.map_map]
  exact List.map_congr_left fun timing _ => timing.target_tally made

theorem map_tally_append (timings : List Timing) (made more : List Attempt) :
    (timings.map (·.tally made)).map (·.tally more) = timings.map (·.tally (made ++ more)) := by
  rw [List.map_map]
  exact List.map_congr_left fun timing _ => (timing.tally_append made more).symm

/-- The timings of a round after a read of its first target and reads of others. -/
theorem map_tally_cons {budget : Budget} {outcome : ReadOutcome} {rest : List Timing}
    (missing : timing.target ∉ rest.map target)
    (targets : made.map Attempt.target = budget.allow (rest.map target)) :
    (timing :: rest).map (·.tally (⟨timing.target, outcome⟩ :: made)) =
      timing.record outcome :: rest.map (·.tally made) := by
  have others : timing.target ∉ made.map Attempt.target := by
    rw [targets]
    exact fun member => missing ((budget.allow_sublist _).subset member)
  have unmoved : ∀ other ∈ rest,
      other.tally (⟨timing.target, outcome⟩ :: made) = other.tally made := by
    intro other member
    refine tally_cons_of_ne ?_ made
    rintro (same : timing.target = other.target)
    exact missing (same ▸ List.mem_map_of_mem member)
  rw [List.map_cons, tally_cons_self outcome others, List.map_congr_left unmoved]

end Timing

end Fieldbus
