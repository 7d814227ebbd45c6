import Fieldbus.Benchmark.Run
import Fieldbus.Command.Console

/-!
# Programs

Four programs for the command line: a benchmark of mailbox reads, a list of a slave's
dictionary and map, a timed read of a few objects, and a display of process values.
-/

namespace Fieldbus

namespace Program

open Console

variable {ε σ : Type}

/-! ## Benchmark -/

/-- The name of the slave at a position; negative positions count from the end. -/
def nameAt (infos : List SlaveInfo) (slave : Int) : Except Fault Text :=
  let place := if slave < 0 then slave + infos.length else slave
  match if place < 0 then none else infos[place.toNat]? with
  | some info => .ok info.name.shown
  | none => .error (.accident .position)

/-- Run a benchmark and print its report. -/
def timeReads [Engine ε] (benchmark : Benchmark) (heading : Action (Master ε) Text) :
    Action (Console ε) Unit := do
  let timings ← withMaster (Benchmark.run benchmark none)
  print (← withMaster heading)
  print (← Action.ofAccident (Benchmark.report timings))

/-- Open the bus for the time of a program, and close it afterwards. -/
def withBus [Engine ε] (program : Action (Console ε) Unit) : Action (Console ε) Unit := do
  withMaster (Master.openBus true)
  Action.ensuring program (withMaster Master.close)

/-- The benchmark that the settings ask for.  Without a number of rounds the targets
are still looked up. -/
def benchmarkOf (settings : Arguments.Settings) (dictionary : ObjectDictionary) :
    Except Fault Benchmark := do
  let some slave := settings.slave | throw (.accident .kind)
  let targets := match settings.targets with
    | some (target :: rest) => target :: rest
    | _ => Benchmark.defaultTargets
  let benchmark : Benchmark := { slave, targets, complete := settings.complete, rounds := 0 }
  let some rounds := settings.rounds
    | do
        let _ ← benchmark.resolve dictionary
        throw (.accident .kind)
  return { benchmark with rounds }

/-- Time mailbox reads of the slave and targets that the settings name. -/
def benchmark [Engine ε] (settings : Arguments.Settings) : Action (Console ε) Unit :=
  withBus do
    let benchmark ← Action.ofExcept (benchmarkOf settings (← get).master.dictionary)
    let heading : Action (Master ε) Text := do
      let name ← Action.ofExcept (nameAt (← Master.slaves) benchmark.slave)
      return s!"Slave [{benchmark.slave}] " ++ name ++
        s!", {benchmark.rounds} rounds (min / mean / max)"
    timeReads benchmark heading

/-! ## Dictionary and map -/

/-- One line for an entry of the dictionary. -/
def entryLine (info : EntryInfo) : Text :=
  let type := match info.dataType with
    | some type => type.name
    | none => "0x" ++ Numeral.hex 4 info.typeCode
  let bits := Numeral.padLeft 4 (toString info.bitLength)
  s!"    {info.entry.text}  {Numeral.padRight 12 type} {bits} bit  " ++
    s!"{Numeral.padRight 2 info.access.op.text}  " ++ info.name.shown

/-- The lines for some objects of a slave. -/
def objectLines (dictionary : ObjectDictionary) (slave : Int) (objects : List ObjectInfo) :
    Except Fault (List Text) := do
  let lines ← objects.mapM fun object => do
    let entries ← dictionary.entries slave object.index false
    let heading : Text := s!"0x{Numeral.hex 4 object.index} " ++ object.name.shown
    return heading :: entries.map entryLine
  return lines.flatten

def mappedLine (info : MappedEntry) : Text :=
  s!"      {info.entry.text}  byte {info.byteOffset} bit {info.bitOffset}  " ++
    s!"{info.bitLength} bit  " ++ info.name.shown

def assignmentLines (assignment : PdoAssignment) : List Text :=
  let pdoLines (pdo : Pdo) : List Text :=
    (s!"    0x{Numeral.hex 4 pdo.index} " ++ pdo.name.shown) :: pdo.entries.map mappedLine
  s!"  SM{assignment.sm} ({assignment.smType.name})" :: assignment.pdos.flatMap pdoLines

/-- Print the dictionary and the map of a slave, or why they could not be read. -/
def listDictionary [Engine ε] (slave : Int) : Action (Console ε) Unit := do
  withMaster (Master.openBus false)
  Action.ensuring
    (do
      let master := (← get).master
      match master.discoveryFaults.get? slave with
      | some fault => print (s!"Slave {slave}: " ++ fault.message)
      | none =>
          let objects ← Action.ofExcept (master.dictionary.objects slave)
          printAll (← Action.ofExcept (objectLines master.dictionary slave objects))
          print "\nPDO assignment:"
          printAll ((← withMaster (Master.map slave)).flatMap assignmentLines))
    (withMaster Master.close)

/-! ## A few objects -/

/-- The objects that are read, as far as the slave has them. -/
def objectIndices : List Int := [0x1018, 0x10f1, 0x8094]

/-- Print the slaves and the timed reads of a few objects of the first one. -/
def readObjects [Engine ε] : Action (Console ε) Unit :=
  withBus do
    let infos ← withMaster Master.slaves
    printAll (infos.map fun info =>
      s!"Found [{info.position}] " ++ info.name.shown ++
        s!" (vendor 0x{Numeral.hex 8 info.vendorId}, product 0x{Numeral.hex 8 info.productCode})")
    let dictionary := (← get).master.dictionary
    let isPresent (index : Int) : Bool := (dictionary.findObject? 0 index).isSome
    printAll ((objectIndices.filter (!isPresent ·)).map fun index =>
      s!"0x{Numeral.hex 4 index}: not in the object dictionary, skipped")
    let benchmark : Benchmark := {
      slave := 0
      targets := (objectIndices.filter isPresent).map .object
      complete := true
      rounds := 100 }
    timeReads benchmark (pure (Text.ofString "min / mean / max"))

/-! ## Process values -/

/-- How many times the values are printed. -/
def displayCycles : Nat := 50

/-- The time between two displays, in seconds. -/
def displayPause : Binary64 := ⟨0x3fb999999999999a⟩

/-- The lines for the values of a handle. -/
def valueLines (handle : Handle) : List Text :=
  handle.values.map fun pair => s!"  [{handle.slave}] {pair.1.text} = {pair.2.text}"

/-- Sleep.  Meanwhile the process-data task, if it runs, gets through one cycle. -/
def sleep [Engine ε] (seconds : Binary64) : Action (Master ε) Unit := do
  Master.changeEngine (Engine.wait · seconds)
  if (← get).running then
    let _ ← Master.cycle

/-- Print the values of the handles some times, from a display number on. -/
def displayFrom [Engine ε] : (count number : Nat) → Action (Console ε) Unit
  | 0, _ => pure ()
  | count + 1, number => do
      print s!"Cycle {number}, WKC {(← get).master.lastWkc}"
      printAll ((← get).master.handles.flatMap valueLines)
      withMaster (sleep displayPause)
      displayFrom count (number + 1)

/-- Register a handle for each of some slaves. -/
def registerAll [Engine ε] : List SlaveInfo → Action (Master ε) Unit
  | [] => pure ()
  | info :: rest => do
      let _ ← Master.register info.position false
      registerAll rest

/-- The slaves on an adapter, found by an engine of their own over the same stack. -/
def discover [Stack σ] (adapter : Payload) : Action (Master (StackEngine σ)) (List SlaveInfo) :=
  fun master =>
    let engine := master.engine
    let keep (scout : StackEngine σ) : Master (StackEngine σ) :=
      { master with session :=
        { master.session with engine := { engine with stack := scout.stack } } }
    match Master.discover adapter (StackEngine.ofStack engine.stack) with
    | .ok infos scout => .ok infos (keep scout)
    | .error fault scout => .error fault (keep scout)

/-- Bring all slaves to the operational state and print their process values. -/
def display [Stack σ] (adapter : Payload) : Action (Console (StackEngine σ)) Unit := do
  withMaster (do registerAll (← discover adapter))
  withMaster (Master.openBus true)
  let expected ← withMaster (Master.ask Engine.expectedWkc)
  print s!"Bus connected! Expected WKC {expected}\n"
  Action.ensuring (displayFrom displayCycles 1) do
    withMaster Master.close
    print "Done."

/-! ## Command lines -/

def cycleOf (milliseconds : Nat) : Payload :=
  .int milliseconds

/-- Run a program with a new master over a stack. -/
def runWith [Stack σ] (stack : σ) (adapter cycleMs : Payload)
    (file : Option (Text × Option Bytes)) (program : Action (Console (StackEngine σ)) Unit) :
    Outcome :=
  match Master.create (StackEngine.ofStack stack) adapter cycleMs none file with
  | .ok master => Outcome.ofRun master program
  | .error fault => Outcome.early (.fault fault)

def runBenchmark [Stack σ] (stack : σ) (arguments : List Text) : Outcome :=
  match Arguments.read arguments with
  | .error .help => Outcome.early (.exit 0)
  | .error .misuse => Outcome.early (.exit 2)
  | .ok settings =>
      runWith stack settings.adapter settings.cycleMs none (benchmark settings)

def runListDictionary [Stack σ] (stack : σ) : List Text → Outcome
  | [] => Outcome.printing "Usage: read_od_list.py <IFNAME> [SLAVE]"
  | adapter :: rest =>
      match rest.head?.map fun text => Numeral.integer? 10 text.toChars with
      | some none => Outcome.early (.fault (.accident .value))
      | slave =>
          runWith stack (.text adapter) .none none (listDictionary ((slave.bind id).getD 0))

def runReadObjects [Stack σ] (stack : σ) : List Text → Outcome
  | [] => Outcome.printing "Usage: read_sdo.py <IFNAME>"
  | adapter :: _ => runWith stack (.text adapter) (cycleOf 5) none readObjects

/-- `content` gives the content of a file, if it exists. -/
def runDisplay [Stack σ] (stack : σ) (content : Text → Option Bytes) :
    List Text → Outcome
  | [] => Outcome.printing "Usage: simple.py <IFNAME> [bus_config.json]"
  | adapter :: rest =>
      let file := (rest.head?.filter (!·.isEmpty)).map fun path => (path, content path)
      runWith stack (.text adapter) (cycleOf 5) file (display (.text adapter))

end Program

end Fieldbus
