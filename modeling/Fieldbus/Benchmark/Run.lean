import Fieldbus.Benchmark.Timing
import Fieldbus.Master.Mailbox

/-!
# Benchmarks

A benchmark reads its targets in turn for a number of rounds and times each read.  It
can be told to stop before any read.
-/

namespace Fieldbus

structure Benchmark where
  slave : Int
  targets : List Target
  /-- Whether an object is read with one upload, instead of entry by entry. -/
  complete : Bool
  rounds : Int
  deriving Repr, Inhabited

namespace Benchmark

variable {ε : Type} [Engine ε]

/-- The identity object. -/
def defaultTargets : List Target := [.object 0x1018]

/-- What a configured target stands for in a dictionary, with names. -/
def expand (benchmark : Benchmark) (dictionary : ObjectDictionary) :
    Target → Except Fault (List (Target × ReportedName))
  | .object index => do
      let object ← dictionary.object benchmark.slave index
      if benchmark.complete then return [(.object index, object.name)]
      else
        let entries ← dictionary.entries benchmark.slave index false
        return (entries.filter EntryInfo.isReadable).map fun info =>
          (.entry info.entry, info.name)
  | .entry address => do
      let info ← dictionary.entry benchmark.slave address
      return [(.entry info.entry, info.name)]

/-- The targets to read, in order; a target may occur more than once. -/
def resolve (benchmark : Benchmark) (dictionary : ObjectDictionary) :
    Except Fault (List (Target × ReportedName)) :=
  (benchmark.targets.mapM (benchmark.expand dictionary)).map List.flatten

/-- One timing for each distinct target; the last name of a target counts. -/
def start (targets : List (Target × ReportedName)) : List Timing :=
  (Table.ofList targets).map fun pair => Timing.start pair.1 pair.2

def read (slave : Int) : Target → Action (Master ε) Reading
  | .entry address => do return .value (← Master.readEntry slave address none)
  | .object index => do return .values (← Master.readComplete slave index false none)

/-- The milliseconds from one time to another. -/
def milliseconds (start stop : Binary64) : Binary64 :=
  (stop.sub start).mul (Binary64.ofNat 1000)

/-- Read the target of a timing once. -/
def sample (slave : Int) (timing : Timing) : Action (Master ε) Timing := do
  let start := Engine.now (← get).engine
  Action.catching Fault.isLibrary
    (do
      let reading ← read slave timing.target
      let stop := Engine.now (← get).engine
      return { timing with
        value := reading
        timesMs := timing.timesMs ++ [milliseconds start stop] })
    (fun fault => return { timing with
      errors := timing.errors + 1
      lastError := fault.message })

/-- How many more reads are allowed; `none` for any number. -/
abbrev Budget := Option Nat

structure Progress where
  timings : List Timing
  budget : Budget
  /-- Whether the benchmark was told to stop. -/
  aborted : Bool
  deriving Repr, Inhabited

/-- Read the targets of timings in turn, as long as reads are allowed. -/
def runRound (slave : Int) : Budget → List Timing → Action (Master ε) Progress
  | budget, [] => return ⟨[], budget, false⟩
  | some 0, timings => return ⟨timings, some 0, true⟩
  | budget, timing :: rest => do
      let timing ← sample slave timing
      let progress ← runRound slave (budget.map (· - 1)) rest
      return { progress with timings := timing :: progress.timings }

/-- Run some rounds, as long as reads are allowed. -/
def runRounds (slave : Int) : (rounds : Nat) → Budget → List Timing →
    Action (Master ε) Progress
  | 0, budget, timings => return ⟨timings, budget, false⟩
  | rounds + 1, budget, timings => do
      let progress ← runRound slave budget timings
      if progress.aborted then return progress
      else runRounds slave rounds progress.budget progress.timings

def warnFailures (benchmark : Benchmark) : List Timing → Action (Master ε) Unit
  | [] => pure ()
  | timing :: rest => do
      if timing.errors ≠ 0 then
        Master.inSession (Session.warn .benchmark
          (s!"Slave {benchmark.slave}: {timing.errors}/{benchmark.rounds} reads of " ++
            s!"{timing.target.text} failed, last: " ++ timing.lastError))
      warnFailures benchmark rest

/-- Run a benchmark.  Failures are reported unless it was told to stop. -/
def run (benchmark : Benchmark) (budget : Budget) : Action (Master ε) (List Timing) := do
  let targets ← Action.ofExcept (benchmark.resolve (← get).dictionary)
  let progress ← runRounds benchmark.slave benchmark.rounds.toNat budget (start targets)
  if !progress.aborted then warnFailures benchmark progress.timings
  return progress.timings

def report (timings : List Timing) : Except Accident Text := do
  return Text.joinWith "\n" (← timings.mapM Timing.summary)

end Benchmark

end Fieldbus
