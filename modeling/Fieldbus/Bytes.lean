/-!
# Byte strings

Payloads, mailbox data and the process image are lists of bytes.  A range of a
byte string may be given with negative positions, which count from its end;
out-of-range positions are moved to the nearest end.  Numbers are stored least
significant byte first.
-/

namespace Fieldbus

abbrev Bytes := List UInt8

namespace Bytes

/-- The place in a string of `length` bytes that `position` stands for. -/
def place (length : Nat) (position : Int) : Nat :=
  if position < 0 then (position + length).toNat
  else min position.toNat length

/-- The bytes from `start` up to, but not including, `stop`. -/
def slice (bytes : Bytes) (start stop : Int) : Bytes :=
  (bytes.take (place bytes.length stop)).drop (place bytes.length start)

/-- Replace the bytes from `start` up to `stop` by `data`.  An empty or reversed
range inserts at its start. -/
def splice (bytes : Bytes) (start stop : Int) (data : Bytes) : Bytes :=
  let first := place bytes.length start
  let last := max first (place bytes.length stop)
  bytes.take first ++ data ++ bytes.drop last

def zeros (length : Nat) : Bytes :=
  List.replicate length 0

/-- The number stored in `bytes`, least significant byte first. -/
def toNat : Bytes → Nat
  | [] => 0
  | byte :: rest => byte.toNat + 256 * toNat rest

/-- The lowest `8 * width` bits of `value`, least significant byte first. -/
def ofNat : (width : Nat) → (value : Nat) → Bytes
  | 0, _ => []
  | width + 1, value => UInt8.ofNat value :: ofNat width (value / 256)

/-- The number in two's complement stored in `bytes`. -/
def toInt (bytes : Bytes) : Int :=
  let value := toNat bytes
  let modulus := Nat.pow 256 bytes.length
  if 2 * value < modulus then value else (value : Int) - modulus

/-- The two's complement of `value` in `width` bytes. -/
def ofInt (width : Nat) (value : Int) : Bytes :=
  ofNat width (value % (Nat.pow 256 width : Nat)).toNat

@[simp] theorem length_ofNat (width value : Nat) : (ofNat width value).length = width := by
  induction width generalizing value with
  | zero => rfl
  | succ width ih => simp [ofNat, ih]

@[simp] theorem length_ofInt (width : Nat) (value : Int) :
    (ofInt width value).length = width := length_ofNat _ _

@[simp] theorem length_zeros (length : Nat) : (zeros length).length = length := by
  simp [zeros]

end Bytes

end Fieldbus
