import Fieldbus.BusConfig
import Fieldbus.Dictionary.Basic
import Fieldbus.PdoConfig
import Fieldbus.Pdo.Values
import Fieldbus.Session

/-!
# Masters

The state of a master: its configuration, its engine, what the last configuration
pass found, the handles of slaves, and how the process-data task fares.
-/

namespace Fieldbus

/-- A handle of one slave.  It queues writes, which the next cycle applies, and keeps
the values of the last cycle.  An observer counts them; what else one may do in a cycle is
told by a company. -/
structure Handle where
  slave : Int
  /-- Whether the handle takes part in cycles. -/
  registered : Bool
  values : Table EntryIndex Value
  pending : List (EntryIndex × Value)
  /-- The number of values at each cycle, if an observer counts them. -/
  observed : Option (List Nat)
  deriving Repr, Inhabited

structure Master (ε : Type) where
  config : BusConfig
  pdoConfig : Option PdoConfig
  session : Session ε
  dictionary : ObjectDictionary
  maps : Table Int PdoMap
  discoveryFaults : Table Int Fault
  /-- All handles in the order of their registration. -/
  handles : List Handle
  /-- Whether the process-data task runs. -/
  running : Bool
  opened : Bool
  inOp : Bool
  okCount : Nat
  errorCount : Nat
  lastWkc : Int
  deriving Inhabited

namespace Master

variable {ε α : Type}

/-- A master that has not been opened. -/
def idle (config : BusConfig) (pdoConfig : Option PdoConfig) (engine : ε) : Master ε where
  config
  pdoConfig
  session := ⟨engine, #[]⟩
  dictionary := ObjectDictionary.empty
  maps := []
  discoveryFaults := []
  handles := []
  running := false
  opened := false
  inOp := false
  okCount := 0
  errorCount := 0
  lastWkc := 0

/-- Set up a master.  The settings are the given ones, or else those of the file, or
else the defaults; an adapter and a cycle time that are not none override them.  The
PDO configuration of the file is read if the settings ask for it. -/
def create (engine : ε) (adapter cycleMs : Payload) (given : Option BusConfig)
    (file : Option (Text × Option Bytes)) : Except Fault (Master ε) := do
  let base ← match given, file with
    | some config, _ => pure config
    | none, some (path, content) => BusConfig.load path content
    | none, none => pure BusConfig.defaults
  let config ← (base.withOverrides [("adapter", adapter), ("cycle_ms", cycleMs)]).mapError
    Fault.accident
  let pdoConfig ← match file with
    | some (path, content) =>
        if config.configurePdo.isSet then (PdoConfig.load path content).map some else pure none
    | none => pure none
  return idle config pdoConfig engine

def engine (master : Master ε) : ε :=
  master.session.engine

def isConnected (master : Master ε) : Bool :=
  master.opened && master.inOp

def sessionPart : Part (Master ε) (Session ε) where
  get master := master.session
  set master session := { master with session }

/-- Work in the session of a master. -/
def inSession (action : Action (Session ε) α) : Action (Master ε) α :=
  Action.within sessionPart action

/-- Let the engine of a master act. -/
def ask (action : Action ε α) : Action (Master ε) α :=
  inSession (Session.ask action)

def changeEngine (change : ε → ε) : Action (Master ε) Unit := fun master =>
  .ok () { master with session := { master.session with engine := change master.engine } }

def report (level : Level) (text : Text) : Action (Master ε) Unit :=
  inSession (Session.report ⟨level, .bus, text⟩)

def map (slave : Int) : Action (Master ε) PdoMap := fun master =>
  match master.maps.get? slave with
  | some map => .ok map master
  | none => .error (.slaveNotFound slave) master

def sdoTimeout : Action (Master ε) Number := do
  return .real (← Action.ofAccident (← get).config.sdoTimeout)

end Master

end Fieldbus
