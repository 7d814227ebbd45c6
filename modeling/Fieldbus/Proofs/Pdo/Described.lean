import Fieldbus.Proofs.Pdo.Assigning
import Fieldbus.Proofs.Tables
import Fieldbus.Proofs.Text.Numerals

/-!
# Documents that describe assignments

What it means that a document describes lists of objects, for some slaves by their positions and
for all others by default.  The configuration that is read from such a document has for each slave
its own lists or else the default ones, whatever else the document holds, and each number in
these lists has a place in its field.
-/

namespace Fieldbus

namespace Assignment

/-- Objects whose indices are unsigned numbers of two bytes and that can be counted in one byte. -/
def AreAssignable (pdos : List Int) : Prop :=
  (∀ index ∈ pdos, 0 ≤ index ∧ index ≤ 0xffff) ∧ pdos.length ≤ 255

theorem fits_of_areAssignable {direction : Direction} {pdos : List Int}
    (areAssignable : AreAssignable pdos) : ∀ step ∈ directionSteps direction pdos, step.Fits := by
  obtain ⟨inRange, few⟩ := areAssignable
  have countFits (count : Nat) (small : count ≤ 255) : (countStep direction count).Fits := by
    have pow : Nat.pow 256 1 = 256 := rfl
    show 0 ≤ (count : Int) ∧ (count : Int) < (Nat.pow 256 1 : Nat)
    omega
  intro step member
  rcases List.mem_cons.mp member with rfl | later
  · exact countFits 0 (by omega)
  · rcases List.mem_append.mp later with listed | last
    · obtain ⟨width, value, _⟩ := mem_indexSteps listed
      obtain ⟨positive, small⟩ := inRange _ value
      rw [Step.Fits, width]
      have pow : Nat.pow 256 2 = 65536 := rfl
      omega
    · rw [List.mem_singleton.mp last]
      exact countFits _ few

end Assignment

/-- The objects of both directions can be assigned. -/
def PdoLists.IsAssignable (lists : PdoLists) : Prop :=
  Assignment.AreAssignable lists.rx ∧ Assignment.AreAssignable lists.tx

theorem PdoLists.IsAssignable.fits {lists : PdoLists} (isAssignable : lists.IsAssignable) :
    ∀ step ∈ Assignment.steps lists, step.Fits :=
  List.forall_mem_append.mpr ⟨Assignment.fits_of_areAssignable isAssignable.1,
    Assignment.fits_of_areAssignable isAssignable.2⟩

namespace PdoConfig

/-- An index in a document: an integer, or a hexadecimal numeral with letters of any case. -/
inductive WritesIndex : Json → Int → Prop
  | integer {index : Nat} (small : index ≤ 0xffff) : WritesIndex (.int index) index
  | numeral {index : Nat} {mark : Char} {digits : List Char} (small : index ≤ 0xffff)
      (marked : mark = 'x' ∨ mark = 'X') (spells : Numeral.Spells 16 index digits) :
      WritesIndex (.text (Text.ofChars ('0' :: mark :: digits))) index

/-- A list of indices in a document; a missing list is empty. -/
inductive WritesList : Option Json → List Int → Prop
  | missing : WritesList none []
  | array {items : List Json} {indices : List Int} (few : items.length ≤ 255)
      (written : List.Forall₂ WritesIndex items indices) : WritesList (some (.array items)) indices

/-- A section with the lists of both directions. -/
inductive WritesLists : Json → PdoLists → Prop
  | object {fields : List (Text × Json)} {lists : PdoLists}
      (rx : WritesList (Json.field? fields "rx_pdo") lists.rx)
      (tx : WritesList (Json.field? fields "tx_pdo") lists.tx) : WritesLists (.object fields) lists

/-- A section under the position of its slave. -/
inductive WritesSlave : Text × Json → Nat × PdoLists → Prop
  | field {digits : List Char} {value : Json} {slave : Nat} {lists : PdoLists}
      (spells : Numeral.Spells 10 slave digits) (written : WritesLists value lists) :
      WritesSlave (Text.ofChars digits, value) (slave, lists)

/-- The sections of slaves at different positions. -/
inductive WritesSlaves : Option Json → Table Nat PdoLists → Prop
  | missing : WritesSlaves none []
  | object {fields : List (Text × Json)} {slaves : Table Nat PdoLists}
      (distinct : (slaves.map Prod.fst).Nodup) (written : List.Forall₂ WritesSlave fields slaves) :
      WritesSlaves (some (.object fields)) slaves

/-- A document that describes lists by default, if there are any, and those of some slaves. -/
inductive Describes : Json → Option PdoLists → Table Nat PdoLists → Prop
  | object {fields : List (Text × Json)} {default? : Option PdoLists} {slaves : Table Nat PdoLists}
      (byDefault : Option.Rel WritesLists (Json.field? fields "default") default?)
      (own : WritesSlaves (Json.field? fields "slaves") slaves) :
      Describes (.object fields) default? slaves

theorem exists_of_mem_right {α β : Type} {related : α → β → Prop} {first : List α} {second : List β}
    (all : List.Forall₂ related first second) {other : β} (member : other ∈ second) :
    ∃ one, related one other := by
  induction all with
  | nil => cases member
  | cons head _ ih =>
      rcases List.mem_cons.mp member with rfl | later
      · exact ⟨_, head⟩
      · exact ih later

section Sections

variable {item value : Json} {index : Int} {lists : PdoLists}

theorem WritesIndex.itemIndex_eq (written : WritesIndex item index) :
    PdoConfig.itemIndex item = .ok index := by
  cases written with
  | integer _ => rfl
  | @numeral index mark digits _ marked spells =>
      have found := Numeral.integer?_hexadecimal marked spells
      rw [PdoConfig.itemIndex, Text.toChars_ofChars]
      rcases marked with rfl | rfl
      · simp only [textIndex, found]
      · simp only [textIndex, found]

theorem WritesIndex.inRange (written : WritesIndex item index) : 0 ≤ index ∧ index ≤ 0xffff := by
  cases written with
  | integer small => omega
  | numeral small _ _ => omega

theorem mapM_itemIndex {items : List Json} {indices : List Int}
    (written : List.Forall₂ WritesIndex items indices) :
    items.mapM PdoConfig.itemIndex = .ok indices :=
  Action.except_mapM_eq_ok_iff.mpr (written.imp fun _ _ writes => writes.itemIndex_eq)

theorem WritesList.indices_eq {list : Option Json} {indices : List Int}
    (written : WritesList list indices) :
    PdoConfig.indices (list.getD (.array [])) = .ok indices := by
  cases written with
  | missing => rfl
  | array _ written => exact mapM_itemIndex written

theorem WritesList.areAssignable {list : Option Json} {indices : List Int}
    (written : WritesList list indices) : Assignment.AreAssignable indices := by
  cases written with
  | missing => simp [Assignment.AreAssignable]
  | array few written =>
      constructor
      · intro index member
        obtain ⟨item, writes⟩ := exists_of_mem_right written member
        exact writes.inRange
      · rwa [← written.length_eq]

theorem WritesLists.ofSection_eq (written : WritesLists value lists) :
    PdoConfig.ofSection value = .ok lists := by
  cases written with
  | object rx tx =>
      rw [PdoConfig.ofSection, rx.indices_eq, tx.indices_eq]
      rfl

theorem WritesLists.isAssignable (written : WritesLists value lists) : lists.IsAssignable := by
  cases written with
  | object rx tx => exact ⟨rx.areAssignable, tx.areAssignable⟩

end Sections

section Documents

variable {fields : List (Text × Json)} {slaves : Table Nat PdoLists}

/-- The position that is read from the digits of a number is this number. -/
theorem position_of_spells {digits : List Char} {slave : Nat} {found : Int}
    (spells : Numeral.Spells 10 slave digits)
    (read : position (Text.ofChars digits) = .ok found) : found = slave := by
  rw [position, Text.toChars_ofChars, Numeral.integer?_decimal spells] at read
  split at read
  · rename_i parsed
    split at parsed
    · cases parsed
    · cases parsed
      cases read
      rfl
  · cases read

/-- The table that is read from the sections of slaves has these, and else what it had before. -/
theorem get?_slaveSections (written : List.Forall₂ WritesSlave fields slaves)
    (distinct : (slaves.map Prod.fst).Nodup) {before after : Table Int PdoLists}
    (read : slaveSections fields before = .ok after) (slave : Nat) :
    after.get? slave = (slaves.get? slave).or (before.get? slave) := by
  induction written generalizing before with
  | nil =>
      cases read
      rfl
  | cons first written ih =>
      cases first with
      | @field digits value own lists spells written =>
          rw [slaveSections] at read
          obtain ⟨parsed, sectioned, read⟩ := Action.except_bind_eq_ok_iff.mp read
          obtain ⟨found, positioned, read⟩ := Action.except_bind_eq_ok_iff.mp read
          obtain rfl := Except.ok.inj (written.ofSection_eq.symm.trans sectioned)
          rw [List.map_cons, List.nodup_cons] at distinct
          rw [ih distinct.2 read, position_of_spells spells positioned, Table.get?_put, Table.get?]
          by_cases same : own = slave
          · have missing : Table.get? _ own = none := Table.get?_eq_none distinct.1
            rw [← same, if_pos rfl, if_pos rfl, missing]
            rfl
          · rw [if_neg same, if_neg (by omega)]

/-- The sections of slaves in a document, of which there are none if they are missing. -/
theorem WritesSlaves.exists_fields {sections : Option Json} (own : WritesSlaves sections slaves) :
    ∃ fields, sections.getD (.object []) = .object fields ∧ List.Forall₂ WritesSlave fields slaves ∧
      (slaves.map Prod.fst).Nodup := by
  cases own with
  | missing => exact ⟨[], rfl, .nil, List.nodup_nil⟩
  | object distinct written => exact ⟨_, rfl, written, distinct⟩

variable {document : Json} {default? : Option PdoLists}

/-- The configuration that is read has the lists by default and the sections of the slaves. -/
theorem ofDocument_object {sections : List (Text × Json)}
    (byDefault : Option.Rel WritesLists (Json.field? fields "default") default?)
    (own : (Json.field? fields "slaves").getD (.object []) = .object sections) :
    ofDocument (.object fields) =
      (slaveSections sections []).map fun slaves => { default?, slaves } := by
  rw [ofDocument, own]
  generalize Json.field? fields "default" = general at byDefault
  cases byDefault with
  | none => rfl
  | some written =>
      dsimp only
      rw [written.ofSection_eq]
      rfl

theorem Describes.lookup?_eq {config : PdoConfig} (describes : Describes document default? slaves)
    (read : ofDocument document = .ok config) (slave : Nat) :
    config.lookup? slave = (slaves.get? slave).or default? := by
  cases describes with
  | object byDefault own =>
      obtain ⟨sections, present, written, distinct⟩ := own.exists_fields
      rw [ofDocument_object byDefault present] at read
      cases parsed : slaveSections sections [] with
      | error accident =>
          rw [parsed] at read
          cases read
      | ok table =>
          rw [parsed] at read
          cases read
          rw [PdoConfig.lookup?, get?_slaveSections written distinct parsed, Table.get?,
            Option.or_none, Option.orElse_eq_or]

theorem Describes.isAssignable {slave : Nat} {lists : PdoLists}
    (describes : Describes document default? slaves)
    (found : (slaves.get? slave).or default? = some lists) : lists.IsAssignable := by
  cases describes with
  | @object fields _ _ byDefault own =>
      rcases Option.or_eq_some_iff.mp found with owned | ⟨_, general⟩
      · obtain ⟨sections, _, written, _⟩ := own.exists_fields
        obtain ⟨field, writes⟩ := exists_of_mem_right written (Table.mem_of_get? owned)
        cases writes with
        | field _ written => exact written.isAssignable
      · rw [general] at byDefault
        generalize Json.field? fields "default" = value at byDefault
        cases byDefault with
        | some written => exact written.isAssignable

end Documents

end PdoConfig

end Fieldbus
