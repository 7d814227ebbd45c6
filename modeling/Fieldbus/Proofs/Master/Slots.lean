import Fieldbus.Master.Mailbox
import Fieldbus.Proofs.Bits
import Fieldbus.Proofs.Outcome
import Fieldbus.Proofs.Value.Decoding
import Mathlib.Algebra.BigOperators.Group.List.Basic

/-!
# The slots of an object

An object that was read with one upload is decoded slot by slot.  A slot that cannot be
decoded does not move the cursor on, although its bytes are there, so that the cursor may
fall behind the bytes of the slots after it.
-/

namespace Fieldbus

def EntryInfo.size (info : EntryInfo) : Nat :=
  (byteCount info.bitLength).toNat

namespace EntryInfo

variable {info : EntryInfo}

theorem bitLength_pos_of_isDecodable (decodable : info.isDecodable = true) :
    0 < info.bitLength := by
  rw [isDecodable, Bool.and_eq_true] at decodable
  simpa using decodable.2

theorem size_eq_of_isDecodable (decodable : info.isDecodable = true) :
    (info.size : Int) = byteCount info.bitLength := by
  have positive := bitLength_pos_of_isDecodable decodable
  rw [size, byteCount]
  omega

theorem size_pos_of_isDecodable (decodable : info.isDecodable = true) : 0 < info.size := by
  have positive := bitLength_pos_of_isDecodable decodable
  rw [size, byteCount]
  omega

end EntryInfo

namespace Slots

def start (entries : List EntryInfo) (place : Nat) : Nat :=
  ((entries.take place).map EntryInfo.size).sum

/-- Where a slot is decoded: after the slots before it that can be decoded. -/
def cursor (entries : List EntryInfo) (place : Nat) : Nat :=
  (((entries.take place).filter EntryInfo.isDecodable).map EntryInfo.size).sum

def total (entries : List EntryInfo) : Nat :=
  (entries.map EntryInfo.size).sum

variable {entries : List EntryInfo} {info : EntryInfo} {raw : Bytes} {place position : Nat}

@[simp]
theorem cursor_zero (entries : List EntryInfo) : cursor entries 0 = 0 := by
  simp [cursor]

theorem cursor_cons_succ (info : EntryInfo) (rest : List EntryInfo) (place : Nat) :
    cursor (info :: rest) (place + 1) =
      (if info.isDecodable then info.size else 0) + cursor rest place := by
  rw [cursor, cursor, List.take_succ_cons, List.filter_cons]
  by_cases decodable : info.isDecodable = true
  · rw [if_pos decodable, if_pos decodable, List.map_cons, List.sum_cons]
  · rw [if_neg decodable, if_neg decodable, Nat.zero_add]

theorem start_cons_succ (info : EntryInfo) (rest : List EntryInfo) (place : Nat) :
    start (info :: rest) (place + 1) = info.size + start rest place := by
  rw [start, start, List.take_succ_cons, List.map_cons, List.sum_cons]

theorem cursor_le_start (entries : List EntryInfo) (place : Nat) :
    cursor entries place ≤ start entries place := by
  induction entries generalizing place with
  | nil => simp [cursor]
  | cons info rest ih =>
      cases place with
      | zero => simp
      | succ place =>
          have later := ih place
          rw [cursor_cons_succ, start_cons_succ]
          split
          · omega
          · omega

theorem start_add_size_le_total (found : entries[place]? = some info) :
    start entries place + info.size ≤ total entries := by
  obtain ⟨inside, rfl⟩ := List.getElem?_eq_some_iff.mp found
  have split : entries = entries.take place ++ entries[place] :: entries.drop (place + 1) := by
    rw [List.getElem_cons_drop, List.take_append_drop]
  rw [total, start]
  conv_rhs => rw [split]
  simp only [List.map_append, List.map_cons, List.sum_append, List.sum_cons]
  omega

/-- No bytes of a slot that cannot be decoded come before one that can. -/
def InStep (entries : List EntryInfo) : Prop :=
  ∀ (before after : Nat) (first second : EntryInfo), before < after →
    entries[before]? = some first → entries[after]? = some second →
      first.isDecodable = false → second.isDecodable = true → first.size = 0

/-- The cursor keeps up with slots that it passes, or that have no bytes. -/
theorem cursor_eq_start (passes : ∀ (before : Nat) (info : EntryInfo), before < place →
      entries[before]? = some info → info.isDecodable = false → info.size = 0) :
    cursor entries place = start entries place := by
  induction entries generalizing place with
  | nil => simp [cursor, start]
  | cons first rest ih =>
      cases place with
      | zero => simp [start]
      | succ place =>
          rw [cursor_cons_succ, start_cons_succ]
          have later : cursor rest place = start rest place := by
            apply ih
            intro before info earlier found
            exact passes (before + 1) info (by omega) found
          by_cases decodable : first.isDecodable = true
          · rw [if_pos decodable, later]
          · rw [if_neg decodable, later, passes 0 first (by omega) rfl (by simpa using decodable)]

/-- The cursor falls behind the bytes of a slot that it does not pass: up to the slot it is never
ahead, and from the slot on it stays behind. -/
theorem cursor_lt_start {before : Nat} (earlier : before < place)
    (found : entries[before]? = some info) (undecodable : info.isDecodable = false)
    (bytes : info.size ≠ 0) : cursor entries place < start entries place := by
  induction entries generalizing before place with
  | nil => simp at found
  | cons first rest ih =>
      cases place with
      | zero => omega
      | succ place =>
          rw [cursor_cons_succ, start_cons_succ]
          cases before with
          | zero =>
              cases found
              have behind := cursor_le_start rest place
              rw [if_neg (by simpa using undecodable)]
              omega
          | succ before =>
              have behind := ih (Nat.lt_of_succ_lt_succ earlier) found
              split
              · omega
              · omega

def Decodes (raw : Bytes) (position : Nat) (info : EntryInfo) (value : Value) : Prop :=
  Value.decode info.dataType info.bitLength
    (raw.slice position (position + info.size : Nat)) 0 = .ok value

/-- Decoding an object has one item for each slot: nothing for a slot that cannot be decoded,
and for any other one what its bytes at the cursor decode to. -/
theorem decodeSlots_ok (position : Nat) {values : List (Option Value)}
    (decoded : Master.decodeSlots raw position entries = .ok values) :
    values.length = entries.length ∧ ∀ place info, entries[place]? = some info →
      (info.isDecodable = false ∧ values[place]? = some none) ∨
        (info.isDecodable = true ∧ ∃ value, values[place]? = some (some value) ∧
          Decodes raw (position + cursor entries place) info value) := by
  induction entries generalizing position values with
  | nil =>
      cases decoded
      exact ⟨rfl, fun place info found => by simp at found⟩
  | cons first rest ih =>
      rw [Master.decodeSlots] at decoded
      by_cases decodable : first.isDecodable = true
      · have size := EntryInfo.size_eq_of_isDecodable decodable
        rw [if_pos decodable] at decoded
        obtain ⟨value, head, tail⟩ := Action.except_bind_eq_ok_iff.mp decoded
        obtain ⟨more, later, same⟩ := Action.except_bind_eq_ok_iff.mp tail
        cases same
        rw [← size, ← Int.natCast_add] at head later
        obtain ⟨lengthEq, slots⟩ := ih _ later
        refine ⟨by rw [List.length_cons, List.length_cons, lengthEq], ?_⟩
        intro place info found
        cases place with
        | zero =>
            cases found
            refine Or.inr ⟨decodable, value, rfl, ?_⟩
            rw [cursor_zero, Nat.add_zero]
            exact head
        | succ place =>
            rw [cursor_cons_succ, if_pos decodable, ← Nat.add_assoc]
            exact slots place info found
      · rw [if_neg decodable] at decoded
        obtain ⟨more, later, same⟩ := Action.except_bind_eq_ok_iff.mp decoded
        cases same
        obtain ⟨lengthEq, slots⟩ := ih _ later
        refine ⟨by rw [List.length_cons, List.length_cons, lengthEq], ?_⟩
        intro place info found
        cases place with
        | zero =>
            cases found
            exact Or.inl ⟨by simpa using decodable, rfl⟩
        | succ place =>
            rw [cursor_cons_succ, if_neg decodable, Nat.zero_add]
            exact slots place info found

theorem exists_decodeSlots (position : Nat) (slots : ∀ place info, entries[place]? = some info →
      info.isDecodable = true → ∃ value, Decodes raw (position + cursor entries place) info value) :
    ∃ values, Master.decodeSlots raw position entries = .ok values := by
  induction entries generalizing position with
  | nil => exact ⟨[], rfl⟩
  | cons first rest ih =>
      rw [Master.decodeSlots]
      by_cases decodable : first.isDecodable = true
      · have size := EntryInfo.size_eq_of_isDecodable decodable
        obtain ⟨value, head⟩ := slots 0 first rfl decodable
        obtain ⟨more, later⟩ : ∃ more,
            Master.decodeSlots raw (position + first.size : Nat) rest = .ok more := by
          apply ih
          intro place info found isDecodable
          have slot := slots (place + 1) info found isDecodable
          rwa [cursor_cons_succ, if_pos decodable, ← Nat.add_assoc] at slot
        rw [if_pos decodable, ← size, ← Int.natCast_add]
        rw [cursor_zero, Nat.add_zero] at head
        refine ⟨some value :: more, ?_⟩
        rw [Decodes] at head
        simp only [head, later, Bind.bind, Except.bind]
        rfl
      · obtain ⟨more, later⟩ : ∃ more, Master.decodeSlots raw position rest = .ok more := by
          apply ih
          intro place info found isDecodable
          have slot := slots (place + 1) info found isDecodable
          rwa [cursor_cons_succ, if_neg decodable, Nat.zero_add] at slot
        rw [if_neg decodable]
        refine ⟨none :: more, ?_⟩
        rw [later]
        rfl

end Slots

end Fieldbus
