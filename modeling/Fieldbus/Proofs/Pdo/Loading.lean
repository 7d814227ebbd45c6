import Fieldbus.Proofs.Pdo.Described

/-!
# Lists of a file

A file of assignments is refused as a configuration, or all lists in it can be assigned, so that
assigning them fails only as a configuration or for what the engine raises itself.  Three kinds of
files come to something else: a document that nests too deep, one that does not have the shape of
sections with lists of indices, and one in which an index or the length of a list that is in force
has no place in its field.
-/

namespace Fieldbus

open Fieldbus.Action

namespace Assignment

variable {ε : Type} [Engine ε] {slave : Int}

/-- A fault that an assignment may raise: one of the configuration, or one that the engine raised
for a write and that is no refusal of it. -/
inductive MayRaise (ε : Type) [Engine ε] (slave : Int) : Fault → Prop
  | configuration (cause : ConfigurationFault) : MayRaise ε slave (.configuration cause)
  | engine {entry : EntryIndex} {data : Bytes} {timeout : Number} {engine after : ε} {fault : Fault}
      (raised : Engine.download slave entry false data timeout engine = .error fault after)
      (other : ∀ slave entry reason, fault ≠ .sdoWrite slave entry reason) :
      MayRaise ε slave fault

/-- An action with planned numbers fails as an assignment may, or because one of the numbers has no
place in its field. -/
def Packs (slave : Int) (plan : List Step) (action : Action (Session ε) Unit) : Prop :=
  ∀ ⦃session after fault⦄, action session = .error fault after →
    MayRaise ε slave fault ∨ fault = .accident .field ∧ ∃ step ∈ plan, ¬ step.Fits

namespace Packs

variable {plan rest : List Step} {action : Action (Session ε) Unit}

theorem pure : Packs slave [] (pure () : Action (Session ε) Unit) := by
  intro session after fault failed
  cases failed

theorem bind {next : Unit → Action (Session ε) Unit} (first : Packs slave plan action)
    (second : Packs slave rest (next ())) : Packs slave (plan ++ rest) (action >>= next) := by
  intro session after fault failed
  rcases bind_eq_error_iff.mp failed with early | ⟨_, between, _, continued⟩
  · refine (first early).imp_right ?_
    rintro ⟨rfl, step, member, unfit⟩
    exact ⟨rfl, step, List.mem_append_left _ member, unfit⟩
  · refine (second continued).imp_right ?_
    rintro ⟨rfl, step, member, unfit⟩
    exact ⟨rfl, step, List.mem_append_right _ member, unfit⟩

/-- A number is packed before the writes that are planned with it. -/
theorem field_bind {step : Step} {next : Bytes → Action (Session ε) Unit}
    (follows : ∀ data, Packs slave (step :: plan) (next data)) :
    Packs slave (step :: plan) (ofAccident (field step.width step.value) >>= next) := by
  cases packed : field step.width step.value with
  | error accident =>
      rintro session _ fault ⟨⟩
      rw [field] at packed
      split at packed
      · cases packed
      · rename_i unfit
        cases packed
        exact Or.inr ⟨rfl, step, List.mem_cons_self, unfit⟩
  | ok data => exact follows data

end Packs

/-- A refused write is worded as a fault of the configuration; every other fault passes. -/
theorem packs_write (plan : List Step) (direction : Direction) (subindex : Nat) (data : Bytes)
    (label : Text) (timeout : Number) :
    Packs (ε := ε) slave plan (write slave direction subindex data label timeout) := by
  intro session after fault failed
  obtain ⟨cause, refused, changed⟩ := mapFault_eq_error_iff.mp failed
  obtain ⟨engine, raised, _⟩ := within_eq_error_iff.mp refused
  split at changed
  · exact Or.inl (changed ▸ .configuration _)
  · rename_i other
    exact Or.inl (changed ▸ .engine raised other)

theorem packs_writeIndices (direction : Direction) (timeout : Number) (subindex : Nat)
    (pdos : List Int) :
    Packs (ε := ε) slave (indexSteps direction subindex pdos)
      (writeIndices slave direction timeout subindex pdos) := by
  induction pdos generalizing subindex with
  | nil => exact .pure
  | cons pdo rest ih =>
      apply Packs.field_bind
      intro data
      exact (packs_write [_] _ _ _ _ _).bind (ih (subindex + 1))

theorem packs_writeDirection (direction : Direction) (pdos : List Int) (timeout : Number) :
    Packs (ε := ε) slave (directionSteps direction pdos)
      (writeDirection slave direction pdos timeout) := by
  refine (packs_write [countStep direction 0] _ _ _ _ _).bind ?_
  refine (packs_writeIndices direction timeout 1 pdos).bind ?_
  apply Packs.field_bind
  intro data
  exact packs_write _ _ _ _ _ _

theorem packs_configure (slave : Int) (lists : PdoLists) (timeout : Number) :
    Packs (ε := ε) slave (steps lists) (configure slave lists timeout) :=
  (packs_writeDirection outputs lists.rx timeout).bind
    (packs_writeDirection inputs lists.tx timeout)

/-- Assigning lists that can be assigned fails in no other way than an assignment may. -/
theorem mayRaise_of_isAssignable {lists : PdoLists} (isAssignable : lists.IsAssignable)
    {timeout : Number} {session after : Session ε} {fault : Fault}
    (stopped : configure slave lists timeout session = .error fault after) :
    MayRaise ε slave fault := by
  rcases packs_configure slave lists timeout stopped with
    raised | ⟨_, step, member, unfit⟩
  · exact raised
  · exact absurd (isAssignable.fits step member) unfit

end Assignment

namespace PdoConfig

/-- The items over which a list of indices runs: those of an array, the units of a text, or the
names of an object. -/
inductive HasItems : Json → List Json → Prop
  | array (items : List Json) : HasItems (.array items) items
  | text (units : Text) : HasItems (.text units) (units.map fun unit => .text [unit])
  | object (fields : List (Text × Json)) :
      HasItems (.object fields) (fields.map fun field => .text field.1)

/-- The index that a text spells: hexadecimal after the mark, else decimal. -/
inductive SpellsIndex : List Char → Int → Prop
  | hexadecimal {mark : Char} {digits : List Char} {index : Int} (marked : mark = 'x' ∨ mark = 'X')
      (spelled : Numeral.integer? 16 ('0' :: mark :: digits) = some index) :
      SpellsIndex ('0' :: mark :: digits) index
  | decimal {chars : List Char} {index : Int}
      (unmarked : ∀ mark digits, chars = '0' :: mark :: digits → mark ≠ 'x' ∧ mark ≠ 'X')
      (spelled : Numeral.integer? 10 chars = some index) : SpellsIndex chars index

/-- The index that an item stands for. -/
inductive StandsFor : Json → Int → Prop
  | integer (index : Int) : StandsFor (.int index) index
  | truth (value : Bool) : StandsFor (.bool value) (if value then 1 else 0)
  | real {value : Binary64} (isNumber : value.isNaN = false) (finite : value.isInfinite = false) :
      StandsFor (.real value) value.truncate
  | text {text : Text} {index : Int} (spells : SpellsIndex text.toChars index) :
      StandsFor (.text text) index

/-- A list of indices, which is empty if it is missing. -/
inductive HasIndices : Option Json → List Int → Prop
  | missing : HasIndices none []
  | list {value : Json} {items : List Json} {indices : List Int} (hasItems : HasItems value items)
      (standFor : List.Forall₂ StandsFor items indices) : HasIndices (some value) indices

/-- A section with the lists of both directions. -/
inductive HasLists : Json → PdoLists → Prop
  | object {fields : List (Text × Json)} {lists : PdoLists}
      (rx : HasIndices (Json.field? fields "rx_pdo") lists.rx)
      (tx : HasIndices (Json.field? fields "tx_pdo") lists.tx) : HasLists (.object fields) lists

/-- A section under the position of its slave. -/
structure IsSection (field : Text × Json) (own : Int × PdoLists) : Prop where
  position : Numeral.integer? 10 field.1.toChars = some own.1
  lists : HasLists field.2 own.2

/-- The lists that a document has by default and those of its sections, in order. -/
inductive HasSections : Json → Option PdoLists → List (Int × PdoLists) → Prop
  | object {fields named : List (Text × Json)} {default? : Option PdoLists}
      {sections : List (Int × PdoLists)}
      (byDefault : Option.Rel HasLists (Json.field? fields "default") default?)
      (present : (Json.field? fields "slaves").getD (.object []) = .object named)
      (own : List.Forall₂ IsSection named sections) : HasSections (.object fields) default? sections

/-- Lists in force: those by default, and those of the last section for a position. -/
inductive InForce (default? : Option PdoLists) (sections : List (Int × PdoLists)) :
    PdoLists → Prop
  | byDefault {lists : PdoLists} (given : default? = some lists) : InForce default? sections lists
  | own {before later : List (Int × PdoLists)} {slave : Int} {lists : PdoLists}
      (order : sections = before ++ (slave, lists) :: later)
      (last : ∀ other ∈ later, other.1 ≠ slave) : InForce default? sections lists

section Reading

variable {item value document : Json} {index : Int} {lists : PdoLists} {fields : List (Text × Json)}
  {default? : Option PdoLists}

theorem elim_eq_ok_iff {found : Option Int} {accident : Accident} :
    found.elim (.error accident) Except.ok = .ok index ↔ found = some index := by
  cases found <;> simp

theorem textIndex_of_marked {mark : Char} (marked : mark = 'x' ∨ mark = 'X') (digits : List Char) :
    textIndex ('0' :: mark :: digits) =
      (Numeral.integer? 16 ('0' :: mark :: digits)).elim (.error .value) .ok := by
  rcases marked with rfl | rfl
  · rw [textIndex]
    cases Numeral.integer? 16 ('0' :: 'x' :: digits) <;> rfl
  · rw [textIndex]
    cases Numeral.integer? 16 ('0' :: 'X' :: digits) <;> rfl

theorem textIndex_of_unmarked {text : List Char}
    (unmarked : ∀ mark digits, text = '0' :: mark :: digits → mark ≠ 'x' ∧ mark ≠ 'X') :
    textIndex text = (Numeral.integer? 10 text).elim (.error .value) .ok := by
  rw [textIndex]
  · cases Numeral.integer? 10 text <;> rfl
  · intro digits marked
    exact (unmarked _ _ marked).1 rfl
  · intro digits marked
    exact (unmarked _ _ marked).2 rfl

theorem textIndex_eq_ok_iff {text : List Char} :
    textIndex text = .ok index ↔ SpellsIndex text index := by
  constructor
  · intro read
    by_cases marked : ∃ mark digits, (mark = 'x' ∨ mark = 'X') ∧ text = '0' :: mark :: digits
    · obtain ⟨mark, digits, marked, rfl⟩ := marked
      rw [textIndex_of_marked marked, elim_eq_ok_iff] at read
      exact .hexadecimal marked read
    · have unmarked : ∀ mark digits, text = '0' :: mark :: digits → mark ≠ 'x' ∧ mark ≠ 'X' := by
        intro mark digits split
        exact not_or.mp fun isMark => marked ⟨mark, digits, isMark, split⟩
      rw [textIndex_of_unmarked unmarked, elim_eq_ok_iff] at read
      exact .decimal unmarked read
  · intro spells
    cases spells with
    | hexadecimal marked spelled => rw [textIndex_of_marked marked, elim_eq_ok_iff, spelled]
    | decimal unmarked spelled => rw [textIndex_of_unmarked unmarked, elim_eq_ok_iff, spelled]

theorem itemIndex_eq_ok_iff : itemIndex item = .ok index ↔ StandsFor item index := by
  constructor
  · intro read
    cases item with
    | text text => exact .text (textIndex_eq_ok_iff.mp read)
    | int other =>
        cases read
        exact .integer _
    | bool value =>
        cases read
        exact .truth _
    | real value =>
        rw [itemIndex] at read
        split at read
        · cases read
        · rename_i isNumber
          split at read
          · cases read
          · rename_i finite
            cases read
            exact .real (by simpa using isNumber) (by simpa using finite)
    | null | array items | object fields => cases read
  · intro standsFor
    cases standsFor with
    | integer | truth => rfl
    | real isNumber finite => simp [itemIndex, isNumber, finite]
    | text spells => exact textIndex_eq_ok_iff.mpr spells

theorem mapM_itemIndex_eq_ok_iff {items : List Json} {indices : List Int} :
    items.mapM itemIndex = .ok indices ↔ List.Forall₂ StandsFor items indices := by
  simp only [except_mapM_eq_ok_iff, itemIndex_eq_ok_iff]

theorem indices_of_hasItems {items : List Json} (hasItems : HasItems value items) :
    PdoConfig.indices value = items.mapM itemIndex := by
  cases hasItems with
  | array => rfl
  | text units => rw [List.mapM_map]; rfl
  | object fields => rw [List.mapM_map]; rfl

theorem indices_eq_ok_iff {list : Option Json} {indices : List Int} :
    PdoConfig.indices (list.getD (.array [])) = .ok indices ↔ HasIndices list indices := by
  constructor
  · intro read
    cases list with
    | none =>
        cases read
        exact .missing
    | some value =>
        rw [Option.getD_some] at read
        cases value with
        | array items =>
            exact .list (.array items) (mapM_itemIndex_eq_ok_iff.mp read)
        | text units =>
            rw [indices_of_hasItems (.text units)] at read
            exact .list (.text units) (mapM_itemIndex_eq_ok_iff.mp read)
        | object fields =>
            rw [indices_of_hasItems (.object fields)] at read
            exact .list (.object fields) (mapM_itemIndex_eq_ok_iff.mp read)
        | null | bool | int | real => cases read
  · intro has
    cases has with
    | missing => rfl
    | list hasItems standFor =>
        rw [Option.getD_some, indices_of_hasItems hasItems]
        exact mapM_itemIndex_eq_ok_iff.mpr standFor

theorem ofSection_eq_ok_iff : ofSection value = .ok lists ↔ HasLists value lists := by
  constructor
  · intro read
    cases value with
    | object fields =>
        obtain ⟨rx, rxRead, read⟩ := except_bind_eq_ok_iff.mp read
        obtain ⟨tx, txRead, read⟩ := except_bind_eq_ok_iff.mp read
        cases read
        exact .object (indices_eq_ok_iff.mp rxRead) (indices_eq_ok_iff.mp txRead)
    | _ => cases read
  · intro has
    cases has with
    | object rx tx =>
        rw [ofSection, indices_eq_ok_iff.mpr rx, indices_eq_ok_iff.mpr tx]
        rfl

theorem position_eq_ok_iff {name : Text} {slave : Int} :
    position name = .ok slave ↔ Numeral.integer? 10 name.toChars = some slave := by
  rw [position]
  cases Numeral.integer? 10 name.toChars <;> simp

theorem slaveSections_eq_ok_iff {before after : Table Int PdoLists} :
    slaveSections fields before = .ok after ↔
      ∃ sections, List.Forall₂ IsSection fields sections ∧
        after = sections.foldl (fun table own => table.put own.1 own.2) before := by
  induction fields generalizing before with
  | nil => simp [slaveSections, eq_comm]
  | cons field rest ih =>
      simp only [slaveSections, except_bind_eq_ok_iff, ofSection_eq_ok_iff, position_eq_ok_iff, ih,
        List.forall₂_cons_left_iff]
      constructor
      · rintro ⟨lists, has, slave, position, sections, own, rfl⟩
        exact ⟨_, ⟨(slave, lists), sections, ⟨position, has⟩, own, rfl⟩, rfl⟩
      · rintro ⟨_, ⟨⟨slave, lists⟩, sections, isSection, own, rfl⟩, rfl⟩
        exact ⟨lists, isSection.lists, slave, isSection.position, sections, own, rfl⟩

theorem ofDocument_of_present {named : List (Text × Json)}
    (present : (Json.field? fields "slaves").getD (.object []) = .object named) :
    ofDocument (.object fields) = do
      let default? ← (Json.field? fields "default").mapM ofSection
      let slaves ← slaveSections named []
      return { default?, slaves } := by
  rw [ofDocument, present]
  cases Json.field? fields "default" <;> rfl

theorem ofDocument_ne_ok {config : PdoConfig}
    (other : ∀ named, (Json.field? fields "slaves").getD (.object []) ≠ .object named) :
    ofDocument (.object fields) ≠ .ok config := by
  intro read
  have thrown {accident : Accident} : ∀ first : Except Accident (Option PdoLists),
      (first >>= fun _ => throw accident : Except Accident PdoConfig) ≠ .ok config := by
    rintro (_ | _) ⟨⟩
  rw [ofDocument] at read
  generalize (Json.field? fields "slaves").getD (.object []) = sections at other read
  cases sections with
  | object named => exact other named rfl
  | _ => split at read <;> exact thrown _ read

theorem mapM_ofSection_eq_ok_iff {given : Option Json} :
    given.mapM ofSection = .ok default? ↔ Option.Rel HasLists given default? := by
  cases given with
  | none => cases default? <;> simp [pure, Except.pure]
  | some value =>
      rw [Option.mapM_some]
      constructor
      · intro read
        cases found : ofSection value with
        | error accident =>
            rw [found] at read
            cases read
        | ok lists =>
            rw [found] at read
            cases read
            exact .some (ofSection_eq_ok_iff.mp found)
      · rintro ⟨has⟩
        rw [ofSection_eq_ok_iff.mpr has]
        rfl

/-- A configuration is read from a document exactly if it has sections, and it is made of them. -/
theorem ofDocument_eq_ok_iff {config : PdoConfig} :
    ofDocument document = .ok config ↔ ∃ default? sections,
      HasSections document default? sections ∧ config = ⟨default?, Table.ofList sections⟩ := by
  constructor
  · intro read
    cases document with
    | object fields =>
        by_cases isObject : ∃ named, (Json.field? fields "slaves").getD (.object []) = .object named
        · obtain ⟨named, present⟩ := isObject
          rw [ofDocument_of_present present] at read
          obtain ⟨default?, byDefault, read⟩ := except_bind_eq_ok_iff.mp read
          obtain ⟨slaves, own, read⟩ := except_bind_eq_ok_iff.mp read
          cases read
          obtain ⟨sections, isSection, rfl⟩ := slaveSections_eq_ok_iff.mp own
          exact ⟨default?, sections,
            .object (mapM_ofSection_eq_ok_iff.mp byDefault) present isSection, rfl⟩
        · exact absurd read (ofDocument_ne_ok (not_exists.mp isObject))
    | _ => cases read
  · rintro ⟨default?, sections, has, rfl⟩
    cases has with
    | object byDefault present own =>
        have slaves : slaveSections _ [] = .ok (Table.ofList sections) :=
          slaveSections_eq_ok_iff.mpr ⟨sections, own, rfl⟩
        rw [ofDocument_of_present present, mapM_ofSection_eq_ok_iff.mpr byDefault, slaves]
        rfl

end Reading

/-- A file that is not judged as it should be: its document nests too deep or does not have
sections, or lists in force cannot be assigned. -/
inductive IsMisread : Option Bytes → Prop
  | tooDeep {content : Bytes} (refused : Json.ofBytes content = .error .tooDeep) :
      IsMisread (some content)
  | shapeless {content : Bytes} {document : Json} (reads : Json.ofBytes content = .ok document)
      (other : ∀ default? sections, ¬ HasSections document default? sections) :
      IsMisread (some content)
  | unassignable {content : Bytes} {document : Json} {default? : Option PdoLists}
      {sections : List (Int × PdoLists)} {lists : PdoLists}
      (reads : Json.ofBytes content = .ok document)
      (has : HasSections document default? sections) (inForce : InForce default? sections lists)
      (tooGreat : ¬ lists.IsAssignable) : IsMisread (some content)

/-- The configuration has the lists by default or for a slave. -/
def Gives (config : PdoConfig) (lists : PdoLists) : Prop :=
  config.default? = some lists ∨ ∃ slave, config.slaves.get? slave = some lists

/-- Assigning lists fails as an assignment may, whatever the engine and the slave. -/
def Assigns (lists : PdoLists) : Prop :=
  ∀ {ε : Type} [Engine ε] {slave : Int} {timeout : Number} {session after : Session ε}
    {fault : Fault}, Assignment.configure slave lists timeout session = .error fault after →
      Assignment.MayRaise ε slave fault

/-- Loading a file refuses it as a configuration, or gives lists that can all be assigned, and
assigning them fails as an assignment may. -/
def Settles (path : Text) (content : Option Bytes) : Prop :=
  (∃ cause, load path content = .error (.configuration cause)) ∨
    ∃ config, load path content = .ok config ∧
      ∀ lists, config.Gives lists → lists.IsAssignable ∧ Assigns lists

section Load

variable {path : Text} {content : Bytes} {document : Json} {default? : Option PdoLists}
  {sections : List (Int × PdoLists)} {lists : PdoLists}

theorem gives_iff :
    Gives ⟨default?, Table.ofList sections⟩ lists ↔ InForce default? sections lists := by
  simp only [Gives, Table.get?_ofList_eq_some_iff]
  constructor
  · rintro (given | ⟨slave, before, later, order, last⟩)
    · exact .byDefault given
    · exact .own order last
  · rintro (given | ⟨order, last⟩)
    · exact Or.inl given
    · exact Or.inr ⟨_, _, _, order, last⟩

theorem load_of_hasSections (path : Text) (reads : Json.ofBytes content = .ok document)
    (has : HasSections document default? sections) :
    load path (some content) = .ok ⟨default?, Table.ofList sections⟩ := by
  rw [load, Option.map_some, reads]
  dsimp only
  rw [ofDocument_eq_ok_iff.mpr ⟨default?, sections, has, rfl⟩]
  rfl

theorem load_of_shapeless (path : Text) (reads : Json.ofBytes content = .ok document)
    (other : ∀ default? sections, ¬ HasSections document default? sections) :
    ∃ accident, load path (some content) = .error (.accident accident) := by
  rw [load, Option.map_some, reads]
  dsimp only
  cases read : ofDocument document with
  | ok config =>
      obtain ⟨default?, sections, has, _⟩ := ofDocument_eq_ok_iff.mp read
      exact absurd has (other default? sections)
  | error accident => exact ⟨accident, rfl⟩

theorem load_of_malformed (path : Text) (refused : Json.ofBytes content = .error .malformed) :
    load path (some content) = .error (.configuration (.unreadable "PDO" path)) := by
  rw [load, Option.map_some, refused]

theorem load_of_tooDeep (path : Text) (refused : Json.ofBytes content = .error .tooDeep) :
    load path (some content) = .error (.accident .depth) := by
  rw [load, Option.map_some, refused]

end Load

/-- Whatever a file holds, loading it settles unless the file is misread. -/
theorem load_assignable_iff (path : Text) (content : Option Bytes) :
    Settles path content ↔ ¬ IsMisread content := by
  rw [Settles]
  constructor
  · rintro settled misread
    cases misread with
    | tooDeep refused =>
        rw [load_of_tooDeep path refused] at settled
        simp at settled
    | shapeless reads other =>
        obtain ⟨accident, failed⟩ := load_of_shapeless path reads other
        rw [failed] at settled
        simp at settled
    | @unassignable _ _ _ _ lists reads has inForce tooGreat =>
        rw [load_of_hasSections path reads has] at settled
        rcases settled with ⟨_, ⟨⟩⟩ | ⟨_, ⟨⟩, assignable⟩
        exact tooGreat (assignable lists (gives_iff.mpr inForce)).1
  · intro judged
    cases content with
    | none => exact Or.inl ⟨_, rfl⟩
    | some bytes =>
        cases reads : Json.ofBytes bytes with
        | error refusal =>
            cases refusal with
            | malformed => exact Or.inl ⟨_, load_of_malformed path reads⟩
            | tooDeep => exact absurd (.tooDeep reads) judged
        | ok document =>
            by_cases shaped : ∃ default? sections, HasSections document default? sections
            · obtain ⟨default?, sections, has⟩ := shaped
              refine Or.inr ⟨_, load_of_hasSections path reads has, ?_⟩
              intro lists gives
              have isAssignable : lists.IsAssignable := by
                by_contra tooGreat
                exact judged (.unassignable reads has (gives_iff.mp gives) tooGreat)
              exact ⟨isAssignable, Assignment.mayRaise_of_isAssignable isAssignable⟩
            · refine absurd (.shapeless reads ?_) judged
              intro default? sections has
              exact shaped ⟨default?, sections, has⟩

/-- A file that assigns by default an object whose index has no place in its field. -/
def wideFile : Bytes :=
  Utf8.encodeChars "\x7b\"default\": \x7b\"rx_pdo\": [65536]\x7d\x7d".toList

theorem wideFile_read : Json.ofBytes wideFile = .ok (.object [(Text.ofString "default",
    .object [(Text.ofString "rx_pdo", .array [.int 65536])])]) := by
  apply except_eq_ok_of_toOption
  decide +kernel

/-- A missing file settles.  A list in the place of an object does not, nor does an index that is
too great. -/
theorem load_assignable_iff_wideFile :
    Settles [] none ∧ ¬ Settles [] (some (Utf8.encodeChars "[]".toList)) ∧
      ¬ Settles [] (some wideFile) := by
  have list : Json.ofBytes (Utf8.encodeChars "[]".toList) = .ok (.array []) := by
    apply except_eq_ok_of_toOption
    decide +kernel
  refine ⟨(load_assignable_iff [] none).mpr nofun, ?_, ?_⟩
  · rw [load_assignable_iff, not_not]
    exact .shapeless list nofun
  · rw [load_assignable_iff, not_not]
    have wide : HasLists (.object [(Text.ofString "rx_pdo", .array [.int 65536])]) ⟨[65536], []⟩ :=
      .object (.list (.array _) (.cons (.integer _) .nil)) .missing
    refine .unassignable wideFile_read (.object (.some wide) rfl .nil) (.byDefault rfl) ?_
    rintro ⟨⟨inRange, _⟩, _⟩
    exact absurd (inRange 65536 (by simp)).2 (by decide)

end PdoConfig

end Fieldbus
