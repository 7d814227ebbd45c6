import Fieldbus.Bytes
import Fieldbus.Fault

/-!
# The process image

The image is one byte string.  The outputs of a slave and its inputs are ranges of
it, laid out one after the other.
-/

namespace Fieldbus

structure ImageRange where
  offset : Nat
  length : Nat
  deriving DecidableEq, Repr, Inhabited

namespace ImageRange

def stop (range : ImageRange) : Nat :=
  range.offset + range.length

def read (range : ImageRange) (image : Bytes) : Bytes :=
  image.slice range.offset range.stop

def write (range : ImageRange) (image data : Bytes) : Bytes :=
  image.splice range.offset range.stop data

/-- The length of regions that are laid out one after the other. -/
def total (lengths : List Nat) : Nat :=
  lengths.foldr (· + ·) 0

/-- Lay out regions of given lengths one after the other from an offset on. -/
def arrange : (offset : Nat) → (lengths : List Nat) → List ImageRange
  | _, [] => []
  | offset, length :: rest => ⟨offset, length⟩ :: arrange (offset + length) rest

/-- The range of a slave among ranges in slave order. -/
def ofSlave (ranges : List ImageRange) (slave : Int) : Except Fault ImageRange :=
  match if slave < 0 then none else ranges[slave.toNat]? with
  | some range => .ok range
  | none => .error (.slaveNotFound slave)

/-- Copy data, cut to its range, to the start of the range; all data in slave
order. -/
def copyIn : (data : List Bytes) → List ImageRange → (image : Bytes) → Bytes
  | data :: others, range :: ranges, image =>
      let cut := data.take range.length
      copyIn others ranges (image.splice range.offset (range.offset + cut.length : Nat) cut)
  | _, _, image => image

end ImageRange

end Fieldbus
