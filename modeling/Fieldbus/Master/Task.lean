import Fieldbus.Master.Handles

/-!
# The process-data task

The task runs a cycle at every tick.  A failing cycle is counted and reported, and
the task goes on; a missed tick restarts the schedule.
-/

namespace Fieldbus

namespace Master

variable {ε : Type} [Engine ε]

/-- A setting with one place; it has to be a number. -/
def oneDecimal (setting : Payload) : Except Accident String :=
  match setting with
  | .text _ => .error .value
  | setting => setting.number.map (Decimal.fixed 1)

/-- Start the process-data task, unless it runs. -/
def start : Action (Master ε) Unit := do
  if (← get).running then return
  else
    changeEngine Engine.taskStarted
    modify fun master => { master with running := true }
    let cycle ← Action.ofAccident (oneDecimal (← get).config.cycleMs)
    report .info s!"ProcessData thread started ({cycle} ms cycle)"

/-- End the process-data task, if it runs. -/
def stop : Action (Master ε) Unit := do
  if (← get).running then
    changeEngine Engine.taskJoined
    modify fun master => { master with running := false }

/-- Run a cycle; if it fails, count and report that. -/
def guardedCycle : Action (Master ε) Unit :=
  Action.catching (fun _ => true) (do let _ ← cycle) fun _ => do
    modify fun master => { master with errorCount := master.errorCount + 1 }
    report .error "Process data cycle failed"

/-- Run cycles, the next one at `tick`.  The result lists the waits between them. -/
def loopFrom : (cycles : Nat) → (tick : Binary64) → Action (Master ε) (List Binary64)
  | 0, _ => pure []
  | cycles + 1, tick => do
      guardedCycle
      let tick := tick.add (← Action.ofAccident (← get).config.cycleTime)
      let now := Engine.now (← get).engine
      let pause := tick.sub now
      if Binary64.zero.lt pause then
        changeEngine (Engine.wait · pause)
        let more ← loopFrom cycles tick
        return pause :: more
      else loopFrom cycles now

/-- Run the process-data task for some cycles. -/
def loop (cycles : Nat) : Action (Master ε) (List Binary64) := do
  loopFrom cycles (Engine.now (← get).engine)

end Master

end Fieldbus
