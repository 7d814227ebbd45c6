import Fieldbus.Command.Arguments
import Fieldbus.Proofs.Outcome
import Fieldbus.Proofs.Text.Numerals

/-!
# Targets that are read back

An entry is printed as two upper-case hexadecimal numerals, which are padded with zeros and never
cut.  What is printed names the entry as an argument of a command line, with the mark of the first
numeral or without it, and the numeral of an index with its mark names the object.
-/

namespace Fieldbus

namespace Numeral

/-- The text writes a number in upper-case hexadecimal, with zeros in front up to a width. -/
structure IsPadded (width value : Nat) (text : List Char) : Prop where
  lengthEq : text.length = max width (Nat.toDigits 16 value).length
  upper : ∀ c ∈ text, c ∈ "0123456789ABCDEF".toList
  spells : Spells 16 value text

variable {width value : Nat} {text : List Char}

theorem toUpper_digitChar {digit : Nat} (small : digit < 16) :
    (Nat.digitChar digit).toUpper ∈ "0123456789ABCDEF".toList ∧
      (Nat.digitChar digit).toUpper.toLower = Nat.digitChar digit := by
  have all : ∀ digit < 16, (Nat.digitChar digit).toUpper ∈ "0123456789ABCDEF".toList ∧
      (Nat.digitChar digit).toUpper.toLower = Nat.digitChar digit := by decide
  exact all digit small

theorem mem_hexDigits {c : Char} (member : c ∈ hexDigits value) :
    c ∈ "0123456789ABCDEF".toList := by
  obtain ⟨lower, inside, rfl⟩ := List.mem_map.mp member
  obtain ⟨digit, small, rfl⟩ := exists_digit_of_mem_toDigits (by decide) inside
  exact (toUpper_digitChar small).1

theorem map_toLower_hexDigits (value : Nat) :
    (hexDigits value).map Char.toLower = Nat.toDigits 16 value := by
  rw [hexDigits, List.map_map]
  conv_rhs => rw [← List.map_id (Nat.toDigits 16 value)]
  apply List.map_congr_left
  intro c member
  obtain ⟨digit, small, rfl⟩ := exists_digit_of_mem_toDigits (by decide) member
  exact (toUpper_digitChar small).2

theorem isPadded_hex (width value : Nat) : IsPadded width value (hex width value).toList := by
  have written : (hex width value).toList =
      List.replicate (width - (hexDigits value).length) '0' ++ hexDigits value := by
    rw [hex, if_neg (by omega), String.toList_ofList, Int.natAbs_natCast]
  have lengthEq : (hexDigits value).length = (Nat.toDigits 16 value).length :=
    List.length_map _
  refine ⟨?_, ?_, width - (hexDigits value).length, ?_⟩
  · rw [written, List.length_append, List.length_replicate, lengthEq]
    omega
  · intro c member
    rw [written, List.mem_append] at member
    rcases member with zero | digit
    · rw [List.eq_of_mem_replicate zero]
      decide
    · exact mem_hexDigits digit
  · rw [written, List.map_append, List.map_replicate, map_toLower_hexDigits]
    rfl

theorem IsPadded.ne_colon (padded : IsPadded width value text) : ∀ c ∈ text, c ≠ ':' := by
  rintro c member rfl
  exact absurd (padded.upper ':' member) (by decide)

end Numeral

open Numeral

namespace Target

variable {index subindex : Nat} {first second : List Char}

theorem ofText?_pair {marked : List Char} (noColon : ∀ c ∈ marked, c ≠ ':')
    (indexRead : integer? 16 marked = some (index : Int))
    (subindexRead : integer? 16 second = some (subindex : Int)) :
    ofText? (marked ++ ':' :: second) = some (.entry ⟨index, subindex⟩) := by
  have before : ∀ c ∈ marked, decide (c ≠ ':') = true := fun c member =>
    decide_eq_true (noColon c member)
  rw [ofText?, List.dropWhile_append_of_pos before, List.takeWhile_append_of_pos before]
  simp [indexRead, subindexRead]

theorem ofText?_marked (padded : IsPadded 4 index first) :
    ofText? ('0' :: 'x' :: first) = some (.object index) := by
  have noColon : ∀ c ∈ '0' :: 'x' :: first, c ≠ ':' := by
    simpa using padded.ne_colon
  have alone : ('0' :: 'x' :: first).dropWhile (fun c => decide (c ≠ ':')) = [] :=
    List.dropWhile_eq_nil_iff.mpr fun c member => decide_eq_true (noColon c member)
  rw [ofText?, alone]
  simp [integer?_marked (Or.inl rfl) (Or.inl rfl) padded.spells]

end Target

theorem EntryIndex.toList_text (index subindex : Nat) :
    (EntryIndex.text ⟨index, subindex⟩).toList =
      '0' :: 'x' :: (hex 4 index).toList ++ ':' :: (hex 2 subindex).toList := by
  simp [EntryIndex.text]

namespace Arguments

theorem classify_plain {c : Char} {rest : Text} (plain : c ≠ '-') :
    classify (.scalar c :: rest) = .ok (.value (.scalar c :: rest)) := by
  rw [classify.eq_def]
  split
  · rename_i same
    cases same
    exact absurd rfl plain
  · rename_i same
    cases same
    exact absurd rfl plain
  · rfl

theorem tokens_plain {arguments : List Text}
    (plain : ∀ argument ∈ arguments, ∃ c rest, argument = .scalar c :: rest ∧ c ≠ '-') :
    tokens arguments = .ok (arguments.map .value) := by
  induction arguments with
  | nil => rfl
  | cons argument rest ih =>
      obtain ⟨c, more, rfl, noDash⟩ := plain argument List.mem_cons_self
      have notLast : TextUnit.scalar c :: more ≠ Text.ofString "--" := by
        intro same
        exact noDash (TextUnit.scalar.inj (List.cons.inj same).1)
      rw [tokens, if_neg notLast, classify_plain noDash,
        ih fun later member => plain later (List.mem_cons_of_mem _ member)]
      rfl

/-- A run of values is taken as the targets that they name. -/
theorem takeTargets_values {settings : Settings} {values : List Text} {targets : List Target}
    (fresh : settings.targets = none)
    (named : (values.map Text.toChars).mapM Target.ofText? = some targets) :
    settings.takeTargets (values.map .value) = .ok { settings with targets := some targets } := by
  have texts (text? : Token → Option (List Char))
      (reads : ∀ text, text? (.value text) = some text.toChars) :
      (values.map Token.value).filterMap text? = values.map Text.toChars := by
    rw [List.filterMap_map, ← List.filterMap_eq_map]
    exact List.filterMap_congr fun value _ => reads value
  rw [Settings.takeTargets, fresh]
  simp only []
  rw [texts _ fun _ => rfl, named]

/-- Arguments without dashes are the targets, all in one run. -/
theorem read_plain {arguments : List Text} {targets : List Target}
    (plain : ∀ argument ∈ arguments, ∃ c rest, argument = .scalar c :: rest ∧ c ≠ '-')
    (named : (arguments.map Text.toChars).mapM Target.ofText? = some targets) :
    read arguments = .ok { Settings.initial with targets := some targets } := by
  have taken : Settings.initial.takeTargets (arguments.map .value) =
      .ok { Settings.initial with targets := some targets } := takeTargets_values rfl named
  have ended : takeAll (arguments.length + 1) Settings.initial (arguments.map .value) =
      .ok { Settings.initial with targets := some targets } := by
    cases arguments with
    | nil => exact taken
    | cons argument rest =>
        have values : ∀ token ∈ rest.map Token.value, isArgument token = true := by
          intro token member
          obtain ⟨text, _, rfl⟩ := List.mem_map.mp member
          rfl
        rw [List.map_cons, takeAll.eq_def]
        simp only []
        rw [List.takeWhile_eq_self_iff.mpr values, List.dropWhile_eq_nil_iff.mpr values,
          ← List.map_cons, taken]
        rfl
  rw [read, tokens_plain plain]
  show (takeAll ((arguments.map Token.value).length + 1) Settings.initial _ >>= _) = _
  rw [List.length_map, ended]
  rfl

end Arguments

/-- An entry is printed as its index in at least four and its subindex in at least two upper-case
hexadecimal digits.  The printed text names the entry, with its mark and without, the marked index
names the object, and a command line of printed entries asks for these entries. -/
theorem Target.readsBack_printed :
    (∀ index subindex : Nat, ∃ first second,
      IsPadded 4 index first ∧ IsPadded 2 subindex second ∧
        (EntryIndex.text ⟨index, subindex⟩).toList = '0' :: 'x' :: first ++ ':' :: second ∧
        ofText? (EntryIndex.text ⟨index, subindex⟩).toList = some (.entry ⟨index, subindex⟩) ∧
        ofText? (first ++ ':' :: second) = some (.entry ⟨index, subindex⟩) ∧
        ofText? ('0' :: 'x' :: first) = some (.object index)) ∧
    ∀ addresses : List (Nat × Nat),
      Arguments.read (addresses.map fun address =>
          Text.ofString (EntryIndex.text ⟨address.1, address.2⟩)) =
        .ok { Arguments.Settings.initial with
          targets := some (addresses.map fun address => .entry ⟨address.1, address.2⟩) } := by
  have readsEntry (index subindex : Nat) :
      Target.ofText? (EntryIndex.text ⟨index, subindex⟩).toList =
        some (.entry ⟨index, subindex⟩) := by
    have padded := isPadded_hex 4 index
    have noColon : ∀ c ∈ '0' :: 'x' :: (hex 4 index).toList, c ≠ ':' := by
      simpa using padded.ne_colon
    rw [EntryIndex.toList_text]
    exact Target.ofText?_pair noColon (integer?_hexadecimal (Or.inl rfl) padded.spells)
      (integer?_unmarked (isPadded_hex 2 subindex).spells)
  constructor
  · intro index subindex
    have first := isPadded_hex 4 index
    have second := isPadded_hex 2 subindex
    exact ⟨_, _, first, second, EntryIndex.toList_text index subindex, readsEntry index subindex,
      Target.ofText?_pair first.ne_colon (integer?_unmarked first.spells)
        (integer?_unmarked second.spells), Target.ofText?_marked first⟩
  · intro addresses
    apply Arguments.read_plain
    · intro argument member
      obtain ⟨address, _, rfl⟩ := List.mem_map.mp member
      rw [Text.ofString, EntryIndex.toList_text]
      exact ⟨'0', _, rfl, by decide⟩
    · induction addresses with
      | nil => rfl
      | cons address rest ih =>
          have first := readsEntry address.1 address.2
          rw [List.map_cons, List.map_cons, List.map_cons, List.mapM_cons, ih, Text.ofString,
            Text.toChars_ofChars, first]
          rfl

end Fieldbus
