import Fieldbus.PdoConfig
import Fieldbus.Session

/-!
# Assignment of process data objects

Writes which objects are assigned to the outputs and the inputs of a slave.  For
each direction the count is cleared first, then the indices are written, then the
count is set, so that an interrupted assignment is not in force.
-/

namespace Fieldbus

namespace Assignment

variable {ε : Type} [Engine ε]

/-- A direction: where its assignment is written, and its name. -/
structure Direction where
  index : Int
  label : String

def outputs : Direction := ⟨0x1c12, "RxPDO"⟩

def inputs : Direction := ⟨0x1c13, "TxPDO"⟩

/-- A number as an unsigned field of `width` bytes. -/
def field (width : Nat) (value : Int) : Except Accident Bytes :=
  if 0 ≤ value ∧ value < (Nat.pow 256 width : Nat) then .ok (Bytes.ofNat width value.toNat)
  else .error .field

/-- One write of an assignment.  A failing write is a fault of the configuration
that names the step. -/
def write (slave : Int) (direction : Direction) (subindex : Nat) (data : Bytes)
    (label : Text) (timeout : Number) : Action (Session ε) Unit :=
  let change (fault : Fault) : Fault :=
    match fault with
    | .sdoWrite .. => .configuration (.assignment fault.message label)
    | other => other
  Action.mapFault change
    (Session.ask (Engine.download slave ⟨direction.index, subindex⟩ false data timeout))

def writeIndices (slave : Int) (direction : Direction) (timeout : Number) :
    (subindex : Nat) → List Int → Action (Session ε) Unit
  | _, [] => pure ()
  | subindex, pdo :: rest => do
      let data ← Action.ofAccident (field 2 pdo)
      write slave direction subindex data
        s!"{direction.label}[{subindex}]=0x{Numeral.hex 4 pdo}" timeout
      writeIndices slave direction timeout (subindex + 1) rest

def writeDirection (slave : Int) (direction : Direction) (pdos : List Int) (timeout : Number) :
    Action (Session ε) Unit := do
  write slave direction 0 [0] s!"clear {direction.label} count" timeout
  writeIndices slave direction timeout 1 pdos
  let count ← Action.ofAccident (field 1 pdos.length)
  write slave direction 0 count s!"set {direction.label} count={pdos.length}" timeout

def configure (slave : Int) (lists : PdoLists) (timeout : Number) :
    Action (Session ε) Unit := do
  writeDirection slave outputs lists.rx timeout
  writeDirection slave inputs lists.tx timeout

end Assignment

end Fieldbus
