import Fieldbus.Benchmark.Run
import Fieldbus.Proofs.Tables
import Mathlib.Data.List.Nodup

/-!
# The schedule of a benchmark

A benchmark reads its distinct targets in turn, round by round, until the rounds are over or no
more reads are allowed.  Each target has its read in every full round, so the reads of two targets
differ by one at most.
-/

namespace Fieldbus

namespace Benchmark

/-- The distinct targets, in the order of their first occurrence. -/
def distinct (targets : List (Target × ReportedName)) : List Target :=
  (targets.map Prod.fst).eraseDups

/-- The reads of some rounds that nothing stops. -/
def plan (rounds : Nat) (targets : List Target) : List Target :=
  (List.replicate rounds targets).flatten

namespace Budget

def allow (budget : Budget) (reads : List Target) : List Target :=
  match budget with
  | none => reads
  | some count => reads.take count

/-- Whether fewer reads are allowed than are planned. -/
def stops (budget : Budget) (planned : Nat) : Bool :=
  match budget with
  | none => false
  | some count => count < planned

def spend (budget : Budget) (made : Nat) : Budget :=
  budget.map (· - made)

variable {budget : Budget} {reads more : List Target} {planned later : Nat}

@[simp]
theorem spend_zero (budget : Budget) : budget.spend 0 = budget := by
  cases budget <;> rfl

theorem spend_spend (budget : Budget) (first second : Nat) :
    (budget.spend first).spend second = budget.spend (first + second) := by
  cases budget with
  | none => rfl
  | some count => exact congrArg some (Nat.sub_sub count first second)

@[simp]
theorem stops_zero (budget : Budget) : budget.stops 0 = false := by
  cases budget with
  | none => rfl
  | some count => exact decide_eq_false (Nat.not_lt_zero count)

theorem eq_zero_of_stops_one (stopped : budget.stops 1 = true) : budget = some 0 := by
  rcases budget with _ | _ | count
  · cases stopped
  · rfl
  · have few : count + 1 < 1 := of_decide_eq_true stopped
    omega

@[simp]
theorem allow_nil (budget : Budget) : budget.allow [] = [] := by
  cases budget with
  | none => rfl
  | some count => exact List.take_nil

theorem allow_append (budget : Budget) (reads more : List Target) :
    budget.allow (reads ++ more) =
      budget.allow reads ++ (budget.spend reads.length).allow more := by
  cases budget with
  | none => rfl
  | some count => exact List.take_append

theorem allow_cons (target : Target) (allowed : budget.stops 1 = false) :
    budget.allow (target :: more) = target :: (budget.spend 1).allow more := by
  rcases budget with _ | _ | count
  · rfl
  · cases allowed
  · rfl

theorem allow_sublist (budget : Budget) (reads : List Target) :
    (budget.allow reads).Sublist reads := by
  cases budget with
  | none => exact List.Sublist.refl reads
  | some count => exact List.take_sublist count reads

theorem allow_of_not_stops (runs : budget.stops reads.length = false) :
    budget.allow reads = reads := by
  cases budget with
  | none => rfl
  | some count => exact List.take_of_length_le (Nat.le_of_not_lt (of_decide_eq_false runs))

theorem allow_of_stops (stopped : budget.stops planned = true) (more : List Target) :
    (budget.spend planned).allow more = [] := by
  cases budget with
  | none => cases stopped
  | some count =>
      have few : count < planned := of_decide_eq_true stopped
      have nothing : count - planned = 0 := by omega
      show more.take (count - planned) = []
      rw [nothing, List.take_zero]

theorem stops_of_stops (stopped : budget.stops planned = true) (later : Nat) :
    budget.stops (planned + later) = true ∧
      budget.spend (planned + later) = budget.spend planned := by
  cases budget with
  | none => cases stopped
  | some count =>
      have few : count < planned := of_decide_eq_true stopped
      refine ⟨decide_eq_true (by omega), congrArg some ?_⟩
      show count - (planned + later) = count - planned
      omega

theorem stops_add (runs : budget.stops planned = false) :
    budget.stops (planned + later) = (budget.spend planned).stops later := by
  cases budget with
  | none => rfl
  | some count =>
      have enough : ¬ count < planned := of_decide_eq_false runs
      show decide (count < planned + later) = decide (count - planned < later)
      rw [decide_eq_decide]
      omega

end Budget

section Counts

variable {rounds : Nat} {targets : List Target} {target other : Target}

theorem plan_zero (targets : List Target) : plan 0 targets = [] :=
  rfl

theorem plan_succ (rounds : Nat) (targets : List Target) :
    plan (rounds + 1) targets = targets ++ plan rounds targets := by
  rw [plan, List.replicate_succ, List.flatten_cons, plan]

theorem length_plan (rounds : Nat) (targets : List Target) :
    (plan rounds targets).length = rounds * targets.length := by
  rw [plan, List.length_flatten, List.map_replicate, List.sum_replicate_nat]

/-- A target is read once in each round. -/
theorem count_plan (nodup : targets.Nodup) (member : target ∈ targets) :
    (plan rounds targets).count target = rounds := by
  induction rounds with
  | zero => rfl
  | succ rounds ih =>
      rw [plan_succ, List.count_append, ih, List.count_eq_one_of_mem nodup member, Nat.add_comm]

/-- However many reads are allowed, no target is read twice more often than another one. -/
theorem count_allow_plan_le (budget : Budget) (nodup : targets.Nodup) (member : target ∈ targets)
    (otherMember : other ∈ targets) :
    (budget.allow (plan rounds targets)).count target ≤
      (budget.allow (plan rounds targets)).count other + 1 := by
  induction rounds generalizing budget with
  | zero => cases budget <;> simp [plan, Budget.allow]
  | succ rounds ih =>
      rw [plan_succ, Budget.allow_append, List.count_append, List.count_append]
      cases stopped : budget.stops targets.length with
      | true =>
          have fewer : (budget.allow targets).count target ≤ 1 :=
            List.nodup_iff_count_le_one.mp (nodup.sublist (budget.allow_sublist targets)) target
          rw [Budget.allow_of_stops stopped]
          simp only [List.count_nil]
          omega
      | false =>
          rw [Budget.allow_of_not_stops stopped, List.count_eq_one_of_mem nodup member,
            List.count_eq_one_of_mem nodup otherMember]
          have := ih (budget.spend targets.length)
          omega

end Counts

end Benchmark

end Fieldbus
