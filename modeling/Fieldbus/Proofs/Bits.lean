import Fieldbus.Bytes
import Mathlib.Data.Nat.Bitwise

/-!
# Bits of byte strings

A byte string seen as its bits, the least significant bit of each byte first.  The
frame laws of slices and splices are stated byte by byte and bit by bit.
-/

namespace Fieldbus

namespace Bytes

/-- The bit at an index, if the string is long enough. -/
def bit? (bytes : Bytes) (index : Nat) : Option Bool :=
  bytes[index / 8]?.map fun byte => byte.toNat.testBit (index % 8)

theorem place_ofNat (length position : Nat) : place length position = min position length := by
  simp [place]

theorem slice_ofNat (bytes : Bytes) (start stop : Nat) :
    bytes.slice start stop = (bytes.take stop).drop start := by
  rw [slice, place_ofNat, place_ofNat]
  rcases Nat.le_total start bytes.length with inside | outside
  · rw [Nat.min_eq_left inside]
    rcases Nat.le_total stop bytes.length with short | long
    · rw [Nat.min_eq_left short]
    · rw [Nat.min_eq_right long, List.take_of_length_le long, List.take_length]
  · rw [Nat.min_eq_right outside, List.drop_eq_nil_of_le, List.drop_eq_nil_of_le]
    · exact (List.length_take_le' stop bytes).trans outside
    · exact List.length_take_le' _ bytes

theorem length_slice_ofNat (bytes : Bytes) (start stop : Nat) :
    (bytes.slice start stop).length = min stop bytes.length - start := by
  rw [slice_ofNat, List.length_drop, List.length_take]

theorem getElem?_slice_ofNat (bytes : Bytes) (start stop index : Nat) :
    (bytes.slice start stop)[index]? =
      if start + index < stop then bytes[start + index]? else none := by
  rw [slice_ofNat, List.getElem?_drop, List.getElem?_take]

theorem bit?_slice_ofNat (bytes : Bytes) (start stop bit : Nat) :
    bit? (bytes.slice start stop) bit =
      if start + bit / 8 < stop then bytes.bit? (8 * start + bit) else none := by
  have whole : (8 * start + bit) / 8 = start + bit / 8 := by omega
  have rest : (8 * start + bit) % 8 = bit % 8 := by omega
  rw [bit?, bit?, getElem?_slice_ofNat, whole, rest]
  by_cases inside : start + bit / 8 < stop
  · rw [if_pos inside, if_pos inside]
  · rw [if_neg inside, if_neg inside, Option.map_none]

section Splice

variable {bytes data : Bytes} {start stop : Nat}

theorem splice_ofNat (ordered : start ≤ stop) (inside : stop ≤ bytes.length) :
    bytes.splice start stop data = bytes.take start ++ data ++ bytes.drop stop := by
  rw [splice, place_ofNat, place_ofNat, Nat.min_eq_left (ordered.trans inside),
    Nat.min_eq_left inside]
  simp only [Nat.max_eq_right ordered]

theorem length_splice (ordered : start ≤ stop) (inside : stop ≤ bytes.length)
    (fits : data.length = stop - start) : (bytes.splice start stop data).length = bytes.length := by
  rw [splice_ofNat ordered inside]
  simp only [List.length_append, List.length_take, List.length_drop, fits]
  omega

theorem getElem?_splice (ordered : start ≤ stop) (inside : stop ≤ bytes.length)
    (fits : data.length = stop - start) (index : Nat) :
    (bytes.splice start stop data)[index]? =
      if start ≤ index ∧ index < stop then data[index - start]? else bytes[index]? := by
  have first : (bytes.take start).length = start := by
    rw [List.length_take]
    omega
  rw [splice_ofNat ordered inside, List.append_assoc]
  by_cases before : index < start
  · rw [List.getElem?_append_left (by omega), List.getElem?_take, if_pos before,
      if_neg (by omega)]
  · rw [List.getElem?_append_right (by omega), first]
    by_cases within : index < stop
    · rw [List.getElem?_append_left (by omega), if_pos ⟨by omega, within⟩]
    · rw [List.getElem?_append_right (by omega), List.getElem?_drop, if_neg (by omega), fits]
      congr 1
      omega

end Splice

/-- The bytes of a part among parts that follow each other. -/
theorem slice_flatten {parts : List Bytes} {place : Nat} {part : Bytes}
    (found : parts[place]? = some part) :
    slice parts.flatten (((parts.take place).map List.length).sum : Nat)
      (((parts.take place).map List.length).sum + part.length : Nat) = part := by
  obtain ⟨inside, rfl⟩ := List.getElem?_eq_some_iff.mp found
  have split : parts = parts.take place ++ parts[place] :: parts.drop (place + 1) := by
    rw [List.getElem_cons_drop, List.take_append_drop]
  have flat : parts.flatten =
      (parts.take place).flatten ++ (parts[place] ++ (parts.drop (place + 1)).flatten) := by
    have flattened := congrArg List.flatten split
    rwa [List.flatten_append, List.flatten_cons] at flattened
  rw [slice_ofNat, flat, ← List.length_flatten, List.take_length_add_append, List.drop_left,
    List.take_left]

section Zeros

theorem toNat_zeros (length : Nat) : toNat (zeros length) = 0 := by
  induction length with
  | zero => rfl
  | succ length ih =>
      show (0 : UInt8).toNat + 256 * toNat (zeros length) = 0
      rw [ih]
      rfl

theorem toNat_one_cons_zeros (length : Nat) :
    toNat (1 :: zeros length) = 1 := by
  rw [toNat, toNat_zeros]
  rfl

variable {total first start width : Nat}

/-- Zeros after the only byte that is not zero. -/
theorem slice_set_zeros_of_lt (before : first < start) (inside : start + width ≤ total) :
    slice ((zeros total).set first 1) start (start + width : Nat) = zeros width := by
  apply List.ext_getElem?
  intro index
  rw [getElem?_slice_ofNat]
  by_cases within : index < width
  · rw [if_pos (by omega), List.getElem?_set_ne (by omega), zeros, zeros,
      List.getElem?_replicate, List.getElem?_replicate, if_pos within, if_pos (by omega)]
  · rw [if_neg (by omega), zeros, List.getElem?_replicate, if_neg within]

theorem slice_set_zeros (inside : first + (width + 1) ≤ total) :
    slice ((zeros total).set first 1) first (first + (width + 1) : Nat) = 1 :: zeros width := by
  apply List.ext_getElem?
  intro index
  rw [getElem?_slice_ofNat]
  cases index with
  | zero =>
      rw [if_pos (by omega), Nat.add_zero, List.getElem?_set_self (by rw [length_zeros]; omega)]
      rfl
  | succ index =>
      rw [List.getElem?_cons_succ]
      by_cases within : index < width
      · rw [if_pos (by omega), List.getElem?_set_ne (by omega), zeros, zeros,
          List.getElem?_replicate, List.getElem?_replicate, if_pos within, if_pos (by omega)]
      · rw [if_neg (by omega), zeros, List.getElem?_replicate, if_neg within]

end Zeros

theorem getElem?_eq_of_bit?_eq {first second : Bytes} (lengthEq : first.length = second.length)
    {index : Nat} (agree : ∀ bit, bit / 8 = index → first.bit? bit = second.bit? bit) :
    first[index]? = second[index]? := by
  rcases Nat.lt_or_ge index first.length with inside | outside
  · rw [List.getElem?_eq_getElem inside, List.getElem?_eq_getElem (lengthEq ▸ inside)]
    apply congrArg
    apply UInt8.toNat_inj.mp
    apply Nat.eq_of_testBit_eq
    intro position
    by_cases small : position < 8
    · have same := agree (8 * index + position) (by omega)
      have whole : (8 * index + position) / 8 = index := by omega
      have rest : (8 * index + position) % 8 = position := by omega
      rw [bit?, bit?, whole, rest, List.getElem?_eq_getElem inside,
        List.getElem?_eq_getElem (lengthEq ▸ inside)] at same
      exact Option.some.inj same
    · have power : 2 ^ 8 ≤ 2 ^ position := Nat.pow_le_pow_right (by decide) (by omega)
      rw [Nat.testBit_lt_two_pow (lt_of_lt_of_le first[index].toNat_lt power),
        Nat.testBit_lt_two_pow (lt_of_lt_of_le (UInt8.toNat_lt _) power)]
  · rw [List.getElem?_eq_none outside, List.getElem?_eq_none (lengthEq ▸ outside)]

/-- The lowest bits of a stored number are those of its first byte. -/
theorem testBit_toNat_cons (byte : UInt8) (rest : Bytes) {position : Nat}
    (small : position < 8) : (toNat (byte :: rest)).testBit position = byte.toNat.testBit position := by
  have low : (toNat (byte :: rest)) % 2 ^ 8 = byte.toNat % 2 ^ 8 := by
    simp only [toNat]
    omega
  have first := Nat.testBit_mod_two_pow (toNat (byte :: rest)) 8 position
  have second := Nat.testBit_mod_two_pow byte.toNat 8 position
  rw [low, second] at first
  simpa [small] using first.symm

end Bytes

end Fieldbus
