import Fieldbus.Proofs.Bits
import Fieldbus.Engine.Image

/-!
# Ranges of an image

Ranges that are laid out one after the other do not overlap and end with the image.  What is
written into one of them is read back from it, and leaves the others as they are.
-/

namespace Fieldbus

namespace ImageRange

variable {range other : ImageRange} {image data : Bytes} {lengths : List Nat}

/-- Two ranges share no byte. -/
def Apart (first second : ImageRange) : Prop :=
  first.stop ≤ second.offset ∨ second.stop ≤ first.offset

theorem Apart.symm (apart : range.Apart other) : other.Apart range :=
  Or.symm apart

@[simp]
theorem total_nil : total [] = 0 :=
  rfl

@[simp]
theorem total_cons (length : Nat) (rest : List Nat) : total (length :: rest) = length + total rest :=
  rfl

theorem total_append (first second : List Nat) : total (first ++ second) = total first + total second := by
  induction first with
  | nil => simp
  | cons length rest ih =>
      simp only [List.cons_append, total_cons, ih]
      omega

theorem arrange_append (offset : Nat) (first second : List Nat) :
    arrange offset (first ++ second) = arrange offset first ++ arrange (offset + total first) second := by
  induction first generalizing offset with
  | nil => simp [arrange]
  | cons length rest ih => simp [arrange, ih, Nat.add_assoc]

@[simp]
theorem length_arrange (offset : Nat) (lengths : List Nat) :
    (arrange offset lengths).length = lengths.length := by
  induction lengths generalizing offset with
  | nil => rfl
  | cons length rest ih => simp [arrange, ih]

theorem within_of_getElem?_arrange {offset index : Nat}
    (found : (arrange offset lengths)[index]? = some range) :
    offset ≤ range.offset ∧ range.stop ≤ offset + total lengths := by
  induction lengths generalizing offset index with
  | nil => simp [arrange] at found
  | cons length rest ih =>
      rw [total_cons]
      cases index with
      | zero =>
          cases found
          simp only [stop]
          omega
      | succ index =>
          have member : (arrange (offset + length) rest)[index]? = some range := found
          have later := ih member
          omega

theorem stop_le_offset_of_lt {offset first second : Nat} (ordered : first < second)
    (firstFound : (arrange offset lengths)[first]? = some range)
    (secondFound : (arrange offset lengths)[second]? = some other) :
    range.stop ≤ other.offset := by
  induction lengths generalizing offset first second with
  | nil => simp [arrange] at firstFound
  | cons length rest ih =>
      cases second with
      | zero => omega
      | succ second =>
          cases first with
          | zero =>
              have later : (arrange (offset + length) rest)[second]? = some other := secondFound
              cases firstFound
              exact (within_of_getElem?_arrange later).1
          | succ first => exact ih (Nat.lt_of_succ_lt_succ ordered) firstFound secondFound

theorem apart_of_ne {offset first second : Nat} (different : first ≠ second)
    (firstFound : (arrange offset lengths)[first]? = some range)
    (secondFound : (arrange offset lengths)[second]? = some other) : range.Apart other := by
  rcases Nat.lt_or_gt_of_ne different with before | after
  · exact Or.inl (stop_le_offset_of_lt before firstFound secondFound)
  · exact Or.inr (stop_le_offset_of_lt after secondFound firstFound)

theorem ofSlave_eq_ok_iff {ranges : List ImageRange} {slave : Int} :
    ofSlave ranges slave = .ok range ↔
      ∃ position : Nat, slave = position ∧ ranges[position]? = some range := by
  rw [ofSlave]
  constructor
  · intro known
    by_cases negative : slave < 0
    · rw [if_pos negative] at known
      cases known
    · rw [if_neg negative] at known
      cases found : ranges[slave.toNat]? with
      | none =>
          rw [found] at known
          cases known
      | some other =>
          rw [found] at known
          cases known
          exact ⟨slave.toNat, by omega, found⟩
  · rintro ⟨position, rfl, found⟩
    rw [if_neg (by omega), Int.toNat_natCast, found]

theorem getElem?_read (range : ImageRange) (image : Bytes) (index : Nat) :
    (range.read image)[index]? =
      if index < range.length then image[range.offset + index]? else none := by
  rw [read, Bytes.getElem?_slice_ofNat]
  simp only [stop, Nat.add_lt_add_iff_left]

theorem read_congr {first second : Bytes}
    (same : ∀ index, range.offset ≤ index → index < range.stop → first[index]? = second[index]?) :
    range.read first = range.read second := by
  apply List.ext_getElem?
  intro index
  rw [getElem?_read, getElem?_read]
  by_cases inside : index < range.length
  · have stops : range.stop = range.offset + range.length := rfl
    rw [if_pos inside, if_pos inside]
    exact same _ (by omega) (by omega)
  · rw [if_neg inside, if_neg inside]

theorem length_read (inside : range.stop ≤ image.length) :
    (range.read image).length = range.length := by
  rw [read, Bytes.length_slice_ofNat, Nat.min_eq_left inside, stop]
  omega

section Write

variable (inside : range.stop ≤ image.length) (fits : data.length = range.length)
include inside fits

theorem length_write : (range.write image data).length = image.length := by
  apply Bytes.length_splice (Nat.le_add_right _ _) inside
  simp only [fits]
  omega

theorem getElem?_write (index : Nat) :
    (range.write image data)[index]? =
      if range.offset ≤ index ∧ index < range.stop then data[index - range.offset]?
      else image[index]? := by
  apply Bytes.getElem?_splice (Nat.le_add_right _ _) inside
  simp only [fits]
  omega

theorem read_write : range.read (range.write image data) = data := by
  apply List.ext_getElem?
  intro index
  rw [getElem?_read, getElem?_write inside fits]
  have stops : range.stop = range.offset + range.length := rfl
  by_cases within : index < range.length
  · rw [if_pos within, if_pos (by omega), Nat.add_sub_cancel_left]
  · rw [if_neg within, List.getElem?_eq_none (by omega)]

theorem read_write_of_apart (apart : range.Apart other) :
    other.read (range.write image data) = other.read image := by
  apply read_congr
  intro index after before
  rw [getElem?_write inside fits, if_neg]
  rintro ⟨_, _⟩
  rcases apart with first | second
  · omega
  · omega

end Write

section Splice

variable {cut : Bytes} (inside : range.stop ≤ image.length) (short : cut.length ≤ range.length)
include inside short

theorem length_spliced :
    (image.splice range.offset (range.offset + cut.length : Nat) cut).length = image.length := by
  have stops : range.stop = range.offset + range.length := rfl
  exact Bytes.length_splice (Nat.le_add_right _ _) (by omega) (by omega)

theorem getElem?_spliced (index : Nat) :
    (image.splice range.offset (range.offset + cut.length : Nat) cut)[index]? =
      if range.offset ≤ index ∧ index < range.offset + cut.length then cut[index - range.offset]?
      else image[index]? := by
  have stops : range.stop = range.offset + range.length := rfl
  exact Bytes.getElem?_splice (Nat.le_add_right _ _) (by omega) (by omega) index

/-- A range starts with what is copied to it and goes on as before. -/
theorem read_spliced :
    range.read (image.splice range.offset (range.offset + cut.length : Nat) cut) =
      cut ++ (range.read image).drop cut.length := by
  apply List.ext_getElem?
  intro index
  rw [getElem?_read, getElem?_spliced inside short]
  by_cases copied : index < cut.length
  · rw [if_pos (by omega), if_pos (by omega), List.getElem?_append_left copied,
      Nat.add_sub_cancel_left]
  · have reached : cut.length + (index - cut.length) = index := by omega
    have beyond : ¬ (range.offset ≤ range.offset + index ∧
        range.offset + index < range.offset + cut.length) := by omega
    rw [if_neg beyond, List.getElem?_append_right (by omega), List.getElem?_drop, reached,
      getElem?_read]

theorem read_spliced_of_apart (apart : range.Apart other) :
    other.read (image.splice range.offset (range.offset + cut.length : Nat) cut) =
      other.read image := by
  have stops : range.stop = range.offset + range.length := rfl
  apply read_congr
  intro index after before
  rw [getElem?_spliced inside short, if_neg]
  rintro ⟨_, _⟩
  rcases apart with first | second
  · omega
  · omega

end Splice

/-- The ranges after the first one lie within the image also after something was copied to the
first one. -/
theorem inside_spliced (data : Bytes) {ranges : List ImageRange}
    (inside : ∀ later ∈ range :: ranges, later.stop ≤ image.length) :
    ∀ later ∈ ranges, later.stop ≤ (image.splice range.offset
      (range.offset + (data.take range.length).length : Nat) (data.take range.length)).length := by
  intro later member
  rw [length_spliced (inside range List.mem_cons_self) (List.length_take_le _ _)]
  exact inside later (List.mem_cons_of_mem _ member)

theorem copyIn_spec (datas : List Bytes) {ranges : List ImageRange} {image : Bytes}
    (inside : ∀ range ∈ ranges, range.stop ≤ image.length) :
    (copyIn datas ranges image).length = image.length ∧
      ∀ index, (∀ range ∈ ranges, ¬ (range.offset ≤ index ∧ index < range.stop)) →
        (copyIn datas ranges image)[index]? = image[index]? := by
  induction datas generalizing ranges image with
  | nil => simp [copyIn]
  | cons data datas ih =>
      cases ranges with
      | nil => simp [copyIn]
      | cons range ranges =>
          have stops : range.stop = range.offset + range.length := rfl
          have ends := inside range List.mem_cons_self
          have short : (data.take range.length).length ≤ range.length := List.length_take_le _ _
          obtain ⟨lengthRest, keptRest⟩ := ih (inside_spliced data inside)
          rw [copyIn]
          refine ⟨lengthRest.trans (length_spliced ends short), ?_⟩
          intro index outside
          have outsideRest : ∀ later ∈ ranges, ¬ (later.offset ≤ index ∧ index < later.stop) := by
            intro later member
            exact outside later (List.mem_cons_of_mem _ member)
          have beyond := outside range List.mem_cons_self
          rw [keptRest index outsideRest, getElem?_spliced ends short, if_neg (by omega)]

/-- What is copied into ranges that are apart comes to lie in its own range, cut to it or followed
by the bytes that were there. -/
theorem read_copyIn {datas : List Bytes} {ranges : List ImageRange}
    (apart : ranges.Pairwise Apart) (inside : ∀ range ∈ ranges, range.stop ≤ image.length)
    {place : Nat} {data : Bytes} (given : datas[place]? = some data)
    (found : ranges[place]? = some range) :
    range.read (copyIn datas ranges image) =
      data.take range.length ++ (range.read image).drop (min range.length data.length) := by
  induction datas generalizing ranges image place with
  | nil => simp at given
  | cons first datas ih =>
      cases ranges with
      | nil => simp at found
      | cons head ranges =>
          obtain ⟨apartHead, apartRest⟩ := List.pairwise_cons.mp apart
          have insideHead := inside head List.mem_cons_self
          have short : (first.take head.length).length ≤ head.length := List.length_take_le _ _
          have insideRest := inside_spliced first inside
          rw [copyIn]
          cases place with
          | zero =>
              cases given
              cases found
              have kept := (copyIn_spec datas insideRest).2
              rw [← List.length_take, ← read_spliced insideHead short]
              apply read_congr
              intro index after before
              apply kept
              intro later member
              rcases apartHead later member with first | second
              · omega
              · omega
          | succ place =>
              have later : range ∈ ranges := List.mem_of_getElem? found
              rw [ih apartRest insideRest given found,
                read_spliced_of_apart insideHead short (apartHead range later)]

end ImageRange

end Fieldbus
