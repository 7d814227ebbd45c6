import Fieldbus.Fault
import Fieldbus.Json.Reader
import Fieldbus.Payload

/-!
# Bus configuration

The settings of a bus: its adapter, its times and three switches.  The `network`
object of a configuration file gives them; whoever opens a bus may override them.
An override is taken as it is given, so a setting is a payload of any kind and is
interpreted where it is used.
-/

namespace Fieldbus

/-- The number that a payload is in arithmetic; a truth value counts as 0 or 1. -/
def Payload.number : Payload → Except Accident Binary64
  | bool value => .ok (if value then Binary64.ofNat 1 else Binary64.zero)
  | int value => (Binary64.ofInt? value).elim (.error .overflow) .ok
  | real value => .ok value
  | _ => .error .kind

/-- The number that a document can be read as; a text may hold a numeral. -/
def Json.toReal : Json → Except Accident Binary64
  | text value => match Numeral.real? value.toChars with
    | some number => .ok number
    | none => .error .value
  | value => (Payload.ofJson value).number

structure BusConfig where
  adapter : Payload
  cycleMs : Payload
  sdoTimeoutMs : Payload
  recvTimeoutUs : Payload
  strictDiscovery : Payload
  strictPdoSize : Payload
  configurePdo : Payload
  deriving Inhabited, Repr

namespace BusConfig

def defaults : BusConfig where
  adapter := .none
  cycleMs := .real (Binary64.ofNat 1)
  sdoTimeoutMs := .real (Binary64.ofNat 3000)
  recvTimeoutUs := .real (Binary64.ofNat 2000)
  strictDiscovery := .bool false
  strictPdoSize := .bool false
  configurePdo := .bool false

def scaled (setting : Payload) (divisor : Nat) : Except Accident Binary64 :=
  setting.number.map fun number => number.div (Binary64.ofNat divisor)

/-- The process-data cycle in seconds. -/
def cycleTime (config : BusConfig) : Except Accident Binary64 :=
  scaled config.cycleMs 1000

/-- The mailbox timeout in seconds. -/
def sdoTimeout (config : BusConfig) : Except Accident Binary64 :=
  scaled config.sdoTimeoutMs 1000

/-- The timeout of an exchange in seconds. -/
def recvTimeout (config : BusConfig) : Except Accident Binary64 :=
  scaled config.recvTimeoutUs 1000000

/-- Replace the setting with a given name. -/
def set (config : BusConfig) (name : String) (value : Payload) : Except Accident BusConfig :=
  if name = "adapter" then .ok { config with adapter := value }
  else if name = "cycle_ms" then .ok { config with cycleMs := value }
  else if name = "sdo_timeout_ms" then .ok { config with sdoTimeoutMs := value }
  else if name = "recv_timeout_us" then .ok { config with recvTimeoutUs := value }
  else if name = "strict_discovery" then .ok { config with strictDiscovery := value }
  else if name = "strict_pdo_size" then .ok { config with strictPdoSize := value }
  else if name = "configure_pdo" then .ok { config with configurePdo := value }
  else .error .kind

def setAll (config : BusConfig) (settings : List (String × Payload)) : Except Accident BusConfig :=
  settings.foldlM (fun config setting => config.set setting.1 setting.2) config

/-- Replace the settings whose override is not none. -/
def withOverrides (config : BusConfig) (overrides : List (String × Payload)) :
    Except Accident BusConfig :=
  config.setAll (overrides.filter fun override => !(override.2 matches .none))

/-- The number in a field of the `network` object. -/
def numberField (path : Text) (network : List (Text × Json)) (name : String)
    (default : Payload) : Except Fault Binary64 :=
  let found := match Json.field? network name with
    | some value => value.toReal
    | none => default.number
  match found with
  | .ok number => .ok number
  | .error .kind | .error .value => .error (.configuration (.networkInvalid path))
  | .error accident => .error (.accident accident)

/-- The settings in a `network` object.  Times have to be positive; the check lets
pass what cannot be compared. -/
def ofNetwork (path : Text) (network : List (Text × Json)) : Except Fault BusConfig := do
  let switch (name : String) : Payload :=
    .bool (((Json.field? network name).map Payload.ofJson).getD (.bool false)).isSet
  let cycleMs ← numberField path network "cycle_ms" defaults.cycleMs
  let sdoTimeoutMs ← numberField path network "sdo_timeout_ms" defaults.sdoTimeoutMs
  let recvTimeoutUs ← numberField path network "recv_timeout_us" defaults.recvTimeoutUs
  if cycleMs.le Binary64.zero then
    throw (.configuration .cycleNotPositive)
  if sdoTimeoutMs.le Binary64.zero || recvTimeoutUs.le Binary64.zero then
    throw (.configuration .timeoutNotPositive)
  return {
    adapter := ((Json.field? network "adapter").map Payload.ofJson).getD .none
    cycleMs := .real cycleMs
    sdoTimeoutMs := .real sdoTimeoutMs
    recvTimeoutUs := .real recvTimeoutUs
    strictDiscovery := switch "strict_discovery"
    strictPdoSize := switch "strict_pdo_size"
    configurePdo := switch "configure_pdo" }

/-- The settings in a configuration file, given by its path and its content, if it
exists.  A file without a `network` section has the default settings. -/
def load (path : Text) (content : Option Bytes) : Except Fault BusConfig :=
  match content.map Json.ofBytes with
  | none | some (.error .malformed) => .error (.configuration (.unreadable "bus" path))
  | some (.error .tooDeep) => .error (.accident .depth)
  | some (.ok (.object fields)) =>
      match (Json.field? fields "network").getD (.object []) with
      | .object network => ofNetwork path network
      | _ => .error (.configuration (.networkNotObject path))
  | some (.ok _) => .error (.accident .noPart)

end BusConfig

end Fieldbus
