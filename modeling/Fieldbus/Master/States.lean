import Fieldbus.Master.Basic

/-!
# States of the slaves
-/

namespace Fieldbus

namespace Master

variable {ε : Type} [Engine ε]

/-- How long to wait for a state, in seconds. -/
def stateTimeout : Number := .real ⟨0x3fe0000000000000⟩

/-- Ask all slaves to take a state. -/
def requestStates (state : Int) : Action (Master ε) Unit :=
  ask (Engine.requestState state)

/-- Wait for all slaves to take a state. -/
def checkStates (state : Int) : Action (Master ε) Unit := do
  let found ← ask (Engine.checkState state stateTimeout)
  if found ≠ state then throw (.communication (.stateMismatch found state))

def slaveCount : Action (Master ε) Nat := do
  return Engine.slaveCount (← get).engine

/-- The state of each slave from a position on.  An error flag or an unknown state is
a fault. -/
def statesFrom : (count position : Nat) → Action (Master ε) (List AlState)
  | 0, _ => pure []
  | count + 1, position => do
      let (code, status) ← ask (Engine.slaveState position)
      match AlState.ofCode? code with
      | some state =>
          let more ← statesFrom count (position + 1)
          return state :: more
      | none => throw (.alState position code (AlStatus.ofCode status))

/-- Refresh and return the state of every slave. -/
def states : Action (Master ε) (List AlState) := do
  let _ ← ask Engine.readState
  statesFrom (← slaveCount) 0

/-- What the engine knows of the slaves. -/
def slaves : Action (Master ε) (List SlaveInfo) := do
  ask (Engine.slavesFrom (← slaveCount) 0)

def reportLine (info : SlaveInfo) : Text :=
  let status :=
    if info.alStatus = 0 then ""
    else s!", AL=0x{Numeral.hex 4 info.alStatus} ({(AlStatus.ofCode info.alStatus).text})"
  s!"  [{info.position}] " ++ info.name.shown ++
    s!": state={AlState.codeText info.state}{status}, Out={info.outputBytes}B, " ++
    s!"In={info.inputBytes}B"

/-- A report on the state of each slave. -/
def stateReport : Action (Master ε) Text := do
  let _ ← ask Engine.readState
  let infos ← slaves
  if infos.isEmpty then return "No slave state info available."
  else return "Slave details:\n" ++ Text.joinWith "\n" (infos.map reportLine)

end Master

end Fieldbus
