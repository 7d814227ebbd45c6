import Fieldbus.Dictionary.Discovery
import Fieldbus.Master.States
import Fieldbus.Master.Task
import Fieldbus.Pdo.Assignment
import Fieldbus.Pdo.Layout

/-!
# Configuration passes

A configuration pass brings the slaves to the pre-operational state, assigns process
data objects, lays out the process image, and reads the dictionary and the process
data map of every slave.  A slave whose discovery fails is reported and recorded; the
others are still configured.
-/

namespace Fieldbus

namespace Master

variable {ε : Type} [Engine ε]

def reach (state : AlState) : Action (Master ε) Unit := do
  requestStates state.code
  checkStates state.code

/-- Write the configured assignments of the slaves from a position on.  A slave
without a section is left alone. -/
def assignFrom (config : PdoConfig) : (count position : Nat) → Action (Master ε) Unit
  | 0, _ => pure ()
  | count + 1, position => do
      match config.lookup? position with
      | some lists => do
          let timeout ← sdoTimeout
          inSession (Assignment.configure position lists timeout)
      | none => pure ()
      assignFrom config count (position + 1)

/-- Write the configured assignments of all slaves. -/
def assign (count : Nat) : Action (Master ε) Unit := do
  match (← get).pdoConfig with
  | some config => assignFrom config count 0
  | none => pure ()

/-- What discovery has found so far: the objects of slaves, and the faults. -/
structure Findings where
  objects : Table Int (List ObjectInfo)
  faults : Table Int Fault
  deriving Inhabited

/-- Report and record that the discovery of a slave failed.  Objects that were
completed before are kept. -/
def recordFailure (what : String) (findings : Findings) (slave : Int) (fault : Fault) :
    Action (Master ε) Findings := do
  report .error (s!"Slave {slave}: {what} discovery failed: " ++ fault.message)
  let objects := if fault.completed.isEmpty then findings.objects
    else findings.objects.put slave fault.completed
  return { objects, faults := findings.faults.put slave fault }

/-- Read the dictionaries of the slaves from a position on. -/
def discoverFrom : (count position : Nat) → Findings → Action (Master ε) Findings
  | 0, _, findings => pure findings
  | count + 1, position, findings => do
      let findings ← Action.catching Fault.isCommunication
        (do
          let objects ← inSession (Discovery.readObjects position)
          return { findings with objects := findings.objects.put position objects })
        (recordFailure "object dictionary" findings position)
      discoverFrom count (position + 1) findings

/-- Resolve the maps of some slaves, but not of those with a fault. -/
def resolveAll (dictionary : ObjectDictionary) :
    List Int → Table Int PdoMap → Table Int Fault →
      Action (Master ε) (Table Int PdoMap × Table Int Fault)
  | [], maps, faults => pure (maps, faults)
  | slave :: rest, maps, faults => do
      if faults.has slave then resolveAll dictionary rest maps faults
      else
        let outcome ← Action.catching Fault.isCommunication
          (do
            let timeout ← sdoTimeout
            let map ← inSession (Layout.resolve (some dictionary) slave timeout)
            return (maps.put slave map, faults))
          (fun fault => do
            report .error
              (s!"Slave {slave}: PDO assignment discovery failed: " ++ fault.message)
            return (maps, faults.put slave fault))
        resolveAll dictionary rest outcome.1 outcome.2

/-- Compare the map of a slave with its part of the process image.  A difference is
reported, or is a fault if the configuration is strict. -/
def validateSizes (slave : Int) : Action (Master ε) Bool := do
  let map ← map slave
  let (outputs, inputs) ← Action.ofAccident (map.bitSizes)
  let info ← ask (Engine.slaveInfo slave)
  let covered := (byteCount outputs, byteCount inputs)
  let held : Int × Int := (info.outputBytes, info.inputBytes)
  if covered = held then return true
  else
    let text := s!"Slave {slave}: PDO map covers Out={covered.1}B, In={covered.2}B " ++
      s!"but the process image holds Out={held.1}B, In={held.2}B"
    if (← get).config.strictPdoSize.isSet then throw (.configuration (.sizeMismatch text))
    else
      report .warning text
      return false

def validateAll : List Int → Action (Master ε) Unit
  | [] => pure ()
  | slave :: rest => do
      let _ ← validateSizes slave
      validateAll rest

/-- Find the slaves and bring them to the pre-operational state; the result is their
number. -/
def prepare : Action (Master ε) Nat := do
  stop
  modify fun master => { master with inOp := false }
  reach .init
  let count ← ask Engine.enumerate
  if count ≤ 0 then throw (.connection .noSlaves)
  report .info s!"Found {count} EtherCAT slave(s)"
  reach .preOp
  return count.toNat

/-- Forget the last pass and lay out the process image. -/
def layOut : Action (Master ε) Unit := do
  modify fun master => { master with dictionary := ObjectDictionary.empty, maps := [] }
  let _ ← ask Engine.mapImage
  ask Engine.configureClocks

/-- Read the dictionaries and the maps of all slaves and keep what was found. -/
def discoverAll (count : Nat) : Action (Master ε) Unit := do
  let findings ← discoverFrom count 0 ⟨[], []⟩
  let dictionary : ObjectDictionary := ⟨findings.objects⟩
  let (maps, discoveryFaults) ← resolveAll dictionary dictionary.positions [] findings.faults
  modify fun master => { master with dictionary, maps, discoveryFaults }

/-- A discovery that failed for a slave is a fault if the configuration is strict. -/
def insistOnDiscovery : Action (Master ε) Unit := do
  let master ← get
  match master.discoveryFaults with
  | (slave, fault) :: _ =>
      if master.config.strictDiscovery.isSet then
        throw (.configuration (.discovery slave fault.message))
  | [] => pure ()

/-- Run a configuration pass.  A running process-data task is ended first. -/
def configure : Action (Master ε) Unit := do
  let count ← prepare
  assign count
  layOut
  discoverAll count
  validateAll ((← get).maps.map Prod.fst)
  insistOnDiscovery

end Master

end Fieldbus
