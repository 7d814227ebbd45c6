import Fieldbus.Proofs.Pdo.Gapless
import Fieldbus.Proofs.Pdo.Transcript
import Fieldbus.Segment.MemoryEngine

/-!
# The law of the layout

Whatever a slave answers, a layout that succeeds is gapless, and it has one assignment
for each process-data sync manager whose reported type is an output or an input, with
the objects and the entries that the slave told of it.

The three loops of a layout share one cursor.  `EntriesLaid` and `PdosLaid` say how far
the cursor moves while entries and objects are laid, and both compose along appended
lists; every loop is then one induction.
-/

namespace Fieldbus

theorem SyncManagerType.ofCode?_eq_some_iff {code : Nat} {type : SyncManagerType} :
    SyncManagerType.ofCode? code = some type ↔ code = type.code := by
  constructor
  · intro found
    have matched := List.find?_some found
    simpa [eq_comm] using matched
  · rintro rfl
    cases type <;> rfl

namespace Layout

/-- Consecutive entries, the first of them at a given bit. -/
def OffsetsFrom : (bit : Int) → List MappedEntry → Prop
  | _, [] => True
  | bit, info :: rest =>
      info.firstBit = bit ∧ 0 ≤ info.bitOffset ∧ info.bitOffset < 8 ∧ 0 ≤ info.bitLength ∧
        OffsetsFrom (bit + info.bitLength) rest

theorem OffsetsFrom.append {bit : Int} {before after : List MappedEntry}
    (first : OffsetsFrom bit before)
    (second : OffsetsFrom (bit + (before.map MappedEntry.bitLength).sum) after) :
    OffsetsFrom bit (before ++ after) := by
  induction before generalizing bit with
  | nil => simpa using second
  | cons info rest ih =>
      obtain ⟨starts, low, high, length, more⟩ := first
      refine ⟨starts, low, high, length, ih more ?_⟩
      simpa [add_assoc] using second

theorem OffsetsFrom.firstBit_eq {bit : Int} {entries : List MappedEntry}
    (offsets : OffsetsFrom bit entries) (index : Nat) (inside : index < entries.length) :
    entries[index].firstBit = bit + ((entries.take index).map MappedEntry.bitLength).sum := by
  induction entries generalizing bit index with
  | nil => simp at inside
  | cons info rest ih =>
      obtain ⟨starts, _, _, _, more⟩ := offsets
      cases index with
      | zero => simpa using starts
      | succ index =>
          have later := ih more index (by simpa using inside)
          simp only [List.getElem_cons_succ, List.take_succ_cons, List.map_cons, List.sum_cons]
          rw [later, add_assoc]

theorem OffsetsFrom.inside {bit : Int} {entries : List MappedEntry}
    (offsets : OffsetsFrom bit entries) :
    ∀ info ∈ entries, (0 ≤ info.bitOffset ∧ info.bitOffset < 8) ∧ 0 ≤ info.bitLength := by
  induction entries generalizing bit with
  | nil => simp
  | cons info rest ih =>
      obtain ⟨_, low, high, length, more⟩ := offsets
      intro other member
      rcases List.mem_cons.mp member with rfl | later
      · exact ⟨⟨low, high⟩, length⟩
      · exact ih more other later

/-- Entries of one direction fill the way between two cursors. -/
structure EntriesLaid (type : SyncManagerType) (start : Cursor) (entries : List MappedEntry)
    (stop : Cursor) : Prop where
  bits : (stop.bits : Int) = start.bits + (entries.map MappedEntry.bitLength).sum
  count : stop.entries = start.entries + entries.length
  positions : entries.map MappedEntry.position = List.range' start.entries entries.length
  offsets : OffsetsFrom start.bits entries
  typed : ∀ info ∈ entries, info.smType = type

namespace EntriesLaid

variable {type : SyncManagerType} {start middle stop : Cursor}
  {before after : List MappedEntry}

theorem nil (type : SyncManagerType) (cursor : Cursor) :
    EntriesLaid type cursor [] cursor where
  bits := by simp
  count := by simp
  positions := by simp
  offsets := trivial
  typed := by simp

theorem of_place (cursor : Cursor) (entry : EntryIndex) (bitLength : Nat)
    (type : SyncManagerType) (info : Option EntryInfo) :
    EntriesLaid type cursor [place cursor entry bitLength type info]
      (cursor.pass bitLength) where
  bits := by simp [Cursor.pass, Layout.place]
  count := by simp [Cursor.pass]
  positions := by simp [Layout.place]
  offsets := by
    simp only [OffsetsFrom, Layout.place, MappedEntry.firstBit, and_true]
    omega
  typed := by simp [Layout.place]

theorem append (first : EntriesLaid type start before middle)
    (second : EntriesLaid type middle after stop) :
    EntriesLaid type start (before ++ after) stop where
  bits := by
    rw [second.bits, first.bits, List.map_append, List.sum_append, add_assoc]
  count := by rw [second.count, first.count, List.length_append, Nat.add_assoc]
  positions := by
    rw [List.map_append, first.positions, second.positions, first.count, List.length_append,
      ← List.range'_append_1]
  offsets := by
    have later := second.offsets
    rw [first.bits] at later
    exact first.offsets.append later
  typed := by
    intro info member
    rcases List.mem_append.mp member with early | late
    · exact first.typed info early
    · exact second.typed info late

theorem with_pdos (laid : EntriesLaid type start before stop) (pdos : Nat) :
    EntriesLaid type start before { stop with pdos } :=
  ⟨laid.bits, laid.count, laid.positions, laid.offsets, laid.typed⟩

end EntriesLaid

/-- Objects of one direction fill the way between two cursors; none of them is empty. -/
structure PdosLaid (type : SyncManagerType) (start : Cursor) (pdos : List Pdo)
    (stop : Cursor) : Prop where
  entries : EntriesLaid type start (pdos.flatMap Pdo.entries) stop
  count : stop.pdos = start.pdos + pdos.length
  positions : pdos.map Pdo.position = List.range' start.pdos pdos.length
  inhabited : ∀ pdo ∈ pdos, pdo.entries ≠ []

namespace PdosLaid

variable {type : SyncManagerType} {start middle stop : Cursor} {before after : List Pdo}

theorem nil (type : SyncManagerType) (cursor : Cursor) : PdosLaid type cursor [] cursor where
  entries := EntriesLaid.nil type cursor
  count := by simp
  positions := by simp
  inhabited := by simp

theorem append (first : PdosLaid type start before middle)
    (second : PdosLaid type middle after stop) :
    PdosLaid type start (before ++ after) stop where
  entries := by
    rw [List.flatMap_append]
    exact first.entries.append second.entries
  count := by rw [second.count, first.count, List.length_append, Nat.add_assoc]
  positions := by
    rw [List.map_append, first.positions, second.positions, first.count, List.length_append,
      ← List.range'_append_1]
  inhabited := by
    intro pdo member
    rcases List.mem_append.mp member with early | late
    · exact first.inhabited pdo early
    · exact second.inhabited pdo late

end PdosLaid

section Quiet

variable {ε : Type} {source : Source} {slave : Int} {session after : Session ε}

theorem typeOfCode_ok {sm code : Nat} {found : SyncManagerType}
    (ran : typeOfCode slave sm code session = .ok found after) :
    after.engine = session.engine ∧ found = (SyncManagerType.ofCode? code).getD .unused := by
  unfold typeOfCode at ran
  cases known : SyncManagerType.ofCode? code with
  | some type =>
      simp only [known, Action.pure_eq_ok_iff] at ran
      obtain ⟨rfl, rfl⟩ := ran
      exact ⟨rfl, rfl⟩
  | none =>
      simp only [known, Action.bind_eq_ok_iff, Session.warn_apply] at ran
      obtain ⟨_, between, warned, rest⟩ := ran
      cases warned
      cases rest
      exact ⟨rfl, rfl⟩

theorem lastSyncManager_ok {count last : Nat}
    (ran : lastSyncManager slave count session = .ok last after) :
    after.engine = session.engine ∧ last = min (count - 1) maxSyncManagers := by
  unfold lastSyncManager at ran
  by_cases many : maxSyncManagers < count - 1
  · simp only [many, if_true, Action.bind_eq_ok_iff, Session.warn_apply] at ran
    obtain ⟨_, between, warned, rest⟩ := ran
    cases warned
    cases rest
    exact ⟨rfl, (Nat.min_eq_right many.le).symm⟩
  · simp only [many, if_false, Action.pure_eq_ok_iff] at ran
    obtain ⟨rfl, rfl⟩ := ran
    exact ⟨rfl, (Nat.min_eq_left (not_lt.mp many)).symm⟩

theorem warnMaybe_ok {text : Option Text} {result : Unit}
    (ran : warnMaybe text session = .ok result after) : after.engine = session.engine := by
  cases text with
  | none => cases ran; rfl
  | some text => cases ran; rfl

theorem readName_ok {pdo : Int} {name : ReportedName}
    (ran : readName source pdo session = .ok name after) :
    after.engine = session.engine := by
  unfold readName at ran
  cases found : source.dictionary.bind (·.findObject? source.slave pdo) with
  | some object =>
      simp only [found, Action.pure_eq_ok_iff] at ran
      rw [ran.2]
  | none =>
      simp only [found, Action.bind_eq_ok_iff, Session.warn_apply] at ran
      obtain ⟨_, between, warned, rest⟩ := ran
      cases warned
      cases rest
      rfl

end Quiet

section Steps

variable {ε : Type} [Engine ε] {source : Source} {slave : Int} {timeout : Number}
  {type : SyncManagerType} {session after : Session ε} {cursor stop : Cursor}

theorem readUnsigned_ok {entry : EntryIndex} {width value : Nat}
    (ran : readUnsigned slave entry width timeout session = .ok value after) :
    ∃ data, Engine.upload slave entry false width timeout session.engine =
        .ok data after.engine ∧
      width ≤ data.length ∧ value = Bytes.toNat (data.take width) := by
  obtain ⟨data, between, asked, rest⟩ := Action.bind_eq_ok_iff.mp ran
  obtain ⟨engine, answered, rfl⟩ := Session.ask_eq_ok_iff.mp asked
  by_cases short : data.length < width
  · simp [short] at rest
  · simp only [short, if_false, Action.pure_eq_ok_iff] at rest
    obtain ⟨rfl, rfl⟩ := rest
    exact ⟨data, answered, not_lt.mp short, rfl⟩

theorem told_readUnsigned {entry : EntryIndex} {width value : Nat}
    (ran : readUnsigned slave entry width timeout session = .ok value after) :
    ∃ transcript, Transcript.Leads slave timeout session.engine transcript after.engine ∧
      TellsNumber entry width transcript value := by
  obtain ⟨data, answered, long, valueEq⟩ := readUnsigned_ok ran
  exact ⟨[⟨entry, width, data⟩], .cons answered (.nil _), data, rfl, long, valueEq⟩

/-- Reading one type asks for its code, and lists the sync manager under the type of that
code.  A mailbox type is dropped at once or filtered out later, which gives the same list. -/
theorem readTypes_cons_ok {sm : Nat} {rest : List Nat} {types : List (Nat × SyncManagerType)}
    (ran : readTypes slave timeout (sm :: rest) session = .ok types after) :
    ∃ data between more,
      Engine.upload slave ⟨typesIndex, (sm + 1 : Nat)⟩ false (1 : Nat) timeout session.engine =
        .ok data between.engine ∧
      readTypes slave timeout rest between = .ok more after ∧
      ∀ type, type ≠ .unused → type ≠ .mailboxRead →
        ofType type types = if Bytes.toNat (data.take 1) = type.code then sm :: ofType type more
          else ofType type more := by
  obtain ⟨code, between, read, typeRan⟩ := Action.bind_eq_ok_iff.mp ran
  obtain ⟨data, answered, _, rfl⟩ := readUnsigned_ok read
  obtain ⟨found, typed, typedRan, tailRan⟩ := Action.bind_eq_ok_iff.mp typeRan
  obtain ⟨sameEngine, foundEq⟩ := typeOfCode_ok typedRan
  have foundIff (type : SyncManagerType) (used : type ≠ .unused) :
      found = type ↔ Bytes.toNat (data.take 1) = type.code := by
    rw [foundEq, ← SyncManagerType.ofCode?_eq_some_iff]
    cases SyncManagerType.ofCode? (Bytes.toNat (data.take 1)) <;> simp [used.symm]
  by_cases dropped : sm = 2 ∧ found = .mailboxRead
  · simp only [dropped, and_self, if_true, Action.bind_eq_ok_iff, Session.warn_apply] at tailRan
    obtain ⟨_, warned, warnedEq, moreRan⟩ := tailRan
    cases warnedEq
    refine ⟨data, _, types, ?_, moreRan, ?_⟩
    · rw [← sameEngine] at answered
      exact answered
    · intro type used notMailbox
      have otherType : found ≠ type := by
        rw [dropped.2]
        exact notMailbox.symm
      rw [if_neg (mt (foundIff type used).mpr otherType)]
  · simp only [dropped, if_false, Action.bind_eq_ok_iff, Action.pure_eq_ok_iff] at tailRan
    obtain ⟨more, last, moreRan, rfl, rfl⟩ := tailRan
    refine ⟨data, typed, more, ?_, moreRan, ?_⟩
    · rw [← sameEngine] at answered
      exact answered
    · intro type used _
      have coded := foundIff type used
      by_cases same : found = type
      · rw [if_pos (coded.mp same)]
        simp [ofType, same]
      · rw [if_neg (mt coded.mpr same)]
        simp [ofType, same]

/-- The sync managers of a type are those whose first reported code is that of the type. -/
theorem readTypes_ok {sms : List Nat} {types : List (Nat × SyncManagerType)}
    (distinct : sms.Nodup) (ran : readTypes slave timeout sms session = .ok types after) :
    ∃ transcript, Transcript.Leads slave timeout session.engine transcript after.engine ∧
      (∀ sm ∈ sms, (transcript.typeCode? sm).isSome) ∧
      ∀ type, type ≠ .unused → type ≠ .mailboxRead →
        ofType type types = sms.filter fun sm => transcript.typeCode? sm = some type.code := by
  induction sms generalizing session types with
  | nil =>
      obtain ⟨rfl, rfl⟩ := Action.pure_eq_ok_iff.mp ran
      exact ⟨[], .nil _, by simp, by simp [ofType]⟩
  | cons sm rest ih =>
      obtain ⟨fresh, distinct⟩ := List.nodup_cons.mp distinct
      obtain ⟨data, between, more, answered, moreRan, typesEq⟩ := readTypes_cons_ok ran
      obtain ⟨transcript, leads, known, filtered⟩ := ih distinct moreRan
      have knows (other : Nat) :
          Transcript.typeCode? (⟨⟨typesIndex, (sm + 1 : Nat)⟩, 1, data⟩ :: transcript) other =
            if sm = other then some (Bytes.toNat (data.take 1))
              else transcript.typeCode? other := by
        simp [Transcript.typeCode?, Transcript.number?_cons]
      refine ⟨⟨⟨typesIndex, (sm + 1 : Nat)⟩, 1, data⟩ :: transcript, .cons answered leads, ?_, ?_⟩
      · intro other member
        rw [knows]
        rcases List.mem_cons.mp member with rfl | later
        · simp
        · split
          · rfl
          · exact known other later
      · intro type used notMailbox
        have unchanged : (rest.filter fun other =>
              Transcript.typeCode? (⟨⟨typesIndex, (sm + 1 : Nat)⟩, 1, data⟩ :: transcript) other =
                some type.code) =
            rest.filter fun other => transcript.typeCode? other = some type.code := by
          apply List.filter_congr
          intro other member
          have different : sm ≠ other := fun equal => fresh (equal ▸ member)
          rw [knows, if_neg different]
        rw [typesEq type used notMailbox, List.filter_cons, unchanged,
          filtered type used notMailbox, knows]
        by_cases same : Bytes.toNat (data.take 1) = type.code <;> simp [same]

theorem readEntry_ok {pdo : Int} {subindex : Nat} {mapped : MappedEntry}
    (ran : readEntry source type pdo subindex cursor session = .ok (mapped, stop) after) :
    (∃ transcript, Transcript.Leads source.slave source.timeout session.engine transcript
        after.engine ∧ TellsEntry pdo subindex transcript mapped) ∧
      EntriesLaid type cursor [mapped] stop ∧ stop.pdos = cursor.pdos := by
  obtain ⟨word, read, wordRan, lengthRan⟩ := Action.bind_eq_ok_iff.mp ran
  obtain ⟨_, firstWarned, firstWarning, placeRan⟩ := Action.bind_eq_ok_iff.mp lengthRan
  obtain ⟨_, secondWarned, secondWarning, placed⟩ := Action.bind_eq_ok_iff.mp placeRan
  obtain ⟨placedEq, rfl⟩ := Action.pure_eq_ok_iff.mp placed
  obtain ⟨rfl, rfl⟩ := Prod.mk.inj placedEq
  obtain ⟨transcript, leads, tells⟩ := told_readUnsigned wordRan
  have quiet : secondWarned.engine = read.engine :=
    (warnMaybe_ok secondWarning).trans (warnMaybe_ok firstWarning)
  refine ⟨⟨transcript, quiet ▸ leads, word, tells, ?_⟩, EntriesLaid.of_place .., rfl⟩
  rw [place, Int.toNat_of_nonneg (Int.emod_nonneg _ (by decide))]
  rfl

theorem readEntries_ok {pdo : Int} {subindices : List Nat} {entries : List MappedEntry}
    (ran : readEntries source type pdo subindices cursor session = .ok (entries, stop) after) :
    (∃ transcript, Transcript.Leads source.slave source.timeout session.engine transcript
        after.engine ∧ Told (TellsEntry pdo) subindices transcript entries) ∧
      EntriesLaid type cursor entries stop ∧ stop.pdos = cursor.pdos := by
  induction subindices generalizing session cursor entries with
  | nil =>
      obtain ⟨laidEq, rfl⟩ := Action.pure_eq_ok_iff.mp ran
      obtain ⟨rfl, rfl⟩ := Prod.mk.inj laidEq
      exact ⟨⟨[], .nil _, .nil⟩, EntriesLaid.nil type cursor, rfl⟩
  | cons subindex rest ih =>
      obtain ⟨⟨mapped, middle⟩, between, entryRan, moreRan⟩ := Action.bind_eq_ok_iff.mp ran
      obtain ⟨⟨more, last⟩, finished, restRan, done⟩ := Action.bind_eq_ok_iff.mp moreRan
      obtain ⟨laidEq, rfl⟩ := Action.pure_eq_ok_iff.mp done
      obtain ⟨rfl, rfl⟩ := Prod.mk.inj laidEq
      obtain ⟨⟨first, firstLeads, firstTold⟩, firstLaid, firstPdos⟩ := readEntry_ok entryRan
      obtain ⟨⟨later, restLeads, restTold⟩, restLaid, restPdos⟩ := ih restRan
      exact ⟨⟨first ++ later, firstLeads.append restLeads, .cons firstTold restTold⟩,
        firstLaid.append restLaid, restPdos.trans firstPdos⟩

theorem readPdo_ok {sm subindex : Nat} {pdo : Option Pdo}
    (ran : readPdo source sm type subindex cursor session = .ok (pdo, stop) after) :
    (∃ transcript, Transcript.Leads source.slave source.timeout session.engine transcript
        after.engine ∧ TellsPdo sm subindex transcript pdo) ∧
      PdosLaid type cursor pdo.toList stop := by
  obtain ⟨index, indexed, indexRan, countRan⟩ := Action.bind_eq_ok_iff.mp ran
  obtain ⟨count, counted, countRead, entriesRan⟩ := Action.bind_eq_ok_iff.mp countRan
  obtain ⟨⟨entries, last⟩, listed, listedRan, nameRan⟩ := Action.bind_eq_ok_iff.mp entriesRan
  obtain ⟨listing, indexLeads, lists⟩ := told_readUnsigned indexRan
  obtain ⟨counting, countLeads, counts⟩ := told_readUnsigned countRead
  obtain ⟨⟨words, wordsLead, maps⟩, laid, samePdos⟩ := readEntries_ok listedRan
  have leads := indexLeads.append (countLeads.append wordsLead)
  by_cases empty : entries.isEmpty
  · simp only [empty, if_true, Action.pure_eq_ok_iff, Prod.mk.injEq] at nameRan
    obtain ⟨⟨rfl, rfl⟩, rfl⟩ := nameRan
    obtain rfl := List.isEmpty_iff.mp empty
    obtain ⟨noneListed, rfl⟩ := maps.eq_nil
    obtain rfl := List.range'_eq_nil_iff.mp noneListed
    rw [List.append_nil] at leads
    exact ⟨⟨_, leads, .left lists counts⟩, laid, by simp [samePdos], by simp, by simp⟩
  · simp only [empty, Bool.false_eq_true, if_false, Action.bind_eq_ok_iff,
      Action.pure_eq_ok_iff, Prod.mk.injEq] at nameRan
    obtain ⟨name, named, nameEq, ⟨rfl, rfl⟩, rfl⟩ := nameRan
    rw [← readName_ok nameEq] at leads
    refine ⟨⟨_, leads, .mapping lists counts maps ⟨rfl, rfl⟩⟩, ?_, ?_, ?_, ?_⟩
    · simpa using laid.with_pdos (last.pdos + 1)
    · simp [samePdos]
    · simp [samePdos]
    · simpa using empty

theorem readPdos_ok {sm : Nat} {subindices : List Nat} {pdos : List Pdo}
    (ran : readPdos source sm type subindices cursor session = .ok (pdos, stop) after) :
    (∃ transcript found, Transcript.Leads source.slave source.timeout session.engine transcript
        after.engine ∧ Told (TellsPdo sm) subindices transcript found ∧
        pdos = found.flatMap Option.toList) ∧
      PdosLaid type cursor pdos stop := by
  induction subindices generalizing session cursor pdos with
  | nil =>
      obtain ⟨laidEq, rfl⟩ := Action.pure_eq_ok_iff.mp ran
      obtain ⟨rfl, rfl⟩ := Prod.mk.inj laidEq
      exact ⟨⟨[], [], .nil _, .nil, rfl⟩, PdosLaid.nil type cursor⟩
  | cons subindex rest ih =>
      obtain ⟨⟨pdo, middle⟩, between, pdoRan, moreRan⟩ := Action.bind_eq_ok_iff.mp ran
      obtain ⟨⟨more, last⟩, finished, restRan, done⟩ := Action.bind_eq_ok_iff.mp moreRan
      obtain ⟨laidEq, rfl⟩ := Action.pure_eq_ok_iff.mp done
      obtain ⟨rfl, rfl⟩ := Prod.mk.inj laidEq
      obtain ⟨⟨first, firstLeads, firstTold⟩, firstLaid⟩ := readPdo_ok pdoRan
      obtain ⟨⟨later, found, restLeads, restTold, rfl⟩, restLaid⟩ := ih restRan
      exact ⟨⟨first ++ later, pdo :: found, firstLeads.append restLeads,
        .cons firstTold restTold, List.flatMap_cons.symm⟩, firstLaid.append restLaid⟩

theorem readAssignment_ok {sm : Nat} {assignment : PdoAssignment}
    (ran : readAssignment source sm type cursor session = .ok (assignment, stop) after) :
    (∃ transcript, Transcript.Leads source.slave source.timeout session.engine transcript
        after.engine ∧ TellsAssignment sm transcript assignment) ∧
      assignment.sm = sm ∧ assignment.smType = type ∧
      PdosLaid type cursor assignment.pdos stop := by
  obtain ⟨count, counted, countRan, pdosRan⟩ := Action.bind_eq_ok_iff.mp ran
  obtain ⟨⟨pdos, last⟩, listed, listedRan, done⟩ := Action.bind_eq_ok_iff.mp pdosRan
  obtain ⟨laidEq, rfl⟩ := Action.pure_eq_ok_iff.mp done
  obtain ⟨rfl, rfl⟩ := Prod.mk.inj laidEq
  obtain ⟨counting, countLeads, counts⟩ := told_readUnsigned countRan
  obtain ⟨⟨words, found, wordsLead, told, foundEq⟩, laid⟩ := readPdos_ok listedRan
  exact ⟨⟨_, countLeads.append wordsLead, counting, words, count, found, rfl, counts, told, rfl,
    foundEq⟩, rfl, rfl, laid⟩

/-- Reading the assignments of one direction lays all their objects, one assignment for
each sync manager. -/
theorem readAssignments_ok {sms : List Nat} {map : PdoMap}
    (ran : readAssignments source type sms cursor session = .ok (map, stop) after) :
    (∃ transcript, Transcript.Leads source.slave source.timeout session.engine transcript
        after.engine ∧ Told TellsAssignment sms transcript map) ∧
      map.map PdoAssignment.sm = sms.map (fun sm : Nat => (sm : Int)) ∧
      (∀ assignment ∈ map, assignment.smType = type) ∧ PdosLaid type cursor map.pdos stop := by
  induction sms generalizing session cursor map with
  | nil =>
      obtain ⟨laidEq, rfl⟩ := Action.pure_eq_ok_iff.mp ran
      obtain ⟨rfl, rfl⟩ := Prod.mk.inj laidEq
      exact ⟨⟨[], .nil _, .nil⟩, rfl, by simp, PdosLaid.nil type cursor⟩
  | cons sm rest ih =>
      obtain ⟨⟨first, middle⟩, between, firstRan, moreRan⟩ := Action.bind_eq_ok_iff.mp ran
      obtain ⟨⟨more, last⟩, finished, restRan, done⟩ := Action.bind_eq_ok_iff.mp moreRan
      obtain ⟨laidEq, rfl⟩ := Action.pure_eq_ok_iff.mp done
      obtain ⟨rfl, rfl⟩ := Prod.mk.inj laidEq
      obtain ⟨⟨early, firstLeads, firstTold⟩, firstSm, firstType, firstLaid⟩ :=
        readAssignment_ok firstRan
      obtain ⟨⟨later, restLeads, restTold⟩, restSms, restTypes, restLaid⟩ := ih restRan
      refine ⟨⟨early ++ later, firstLeads.append restLeads, .cons firstTold restTold⟩, ?_, ?_, ?_⟩
      · simp [firstSm, restSms]
      · simpa [firstType] using restTypes
      · exact firstLaid.append restLaid

end Steps

section Directions

variable {outputs inputs map : PdoMap} {type : SyncManagerType} {start middle stop : Cursor}

theorem pairwise_precedes (typed : ∀ assignment ∈ map, assignment.smType = type)
    (ascending : (map.map PdoAssignment.sm).Pairwise (· < ·)) :
    map.Pairwise PdoAssignment.Precedes := by
  rw [List.pairwise_map] at ascending
  apply ascending.imp_of_mem
  intro first second firstMember secondMember less
  exact Or.inr ⟨(typed first firstMember).trans (typed second secondMember).symm, less⟩

theorem PdosLaid.placed (laid : PdosLaid type start map.pdos stop) (fromZero : start.bits = 0)
    (index : Nat) (inside : index < map.entries.length) :
    map.entries[index].firstBit =
      ((map.entries.take index).map MappedEntry.bitLength).sum := by
  have offsets := laid.entries.offsets
  rw [← PdoMap.entries_eq_flatMap_pdos, fromZero] at offsets
  simpa using offsets.firstBit_eq index inside

theorem PdosLaid.typed (laid : PdosLaid type start map.pdos stop)
    (typed : ∀ assignment ∈ map, assignment.smType = type) :
    ∀ assignment ∈ map, ∀ info ∈ assignment.entries, info.smType = assignment.smType := by
  intro assignment member info inside
  rw [typed assignment member]
  apply laid.entries.typed
  rw [← PdoMap.entries_eq_flatMap_pdos]
  exact List.mem_flatMap.mpr ⟨assignment, member, inside⟩

/-- The entries of each direction start at its own bit zero. -/
theorem placed_append (outputsTyped : ∀ assignment ∈ outputs, assignment.smType = .outputs)
    (inputsTyped : ∀ assignment ∈ inputs, assignment.smType = .inputs)
    (outputsLaid : PdosLaid .outputs Cursor.start outputs.pdos middle)
    (inputsLaid : PdosLaid .inputs { middle with bits := 0 } inputs.pdos stop)
    (type : SyncManagerType) (index : Nat)
    (inside : index < (PdoMap.entriesOf (outputs ++ inputs) type).length) :
    ((PdoMap.entriesOf (outputs ++ inputs) type)[index]).firstBit =
      (((PdoMap.entriesOf (outputs ++ inputs) type).take index).map
        MappedEntry.bitLength).sum := by
  have outputsOf : PdoMap.entriesOf (outputs ++ inputs) .outputs = outputs.entries := by
    rw [PdoMap.entriesOf_append, PdoMap.entriesOf_eq_entries outputsTyped,
      PdoMap.entriesOf_eq_nil (by decide) inputsTyped, List.append_nil]
  have inputsOf : PdoMap.entriesOf (outputs ++ inputs) .inputs = inputs.entries := by
    rw [PdoMap.entriesOf_append, PdoMap.entriesOf_eq_entries inputsTyped,
      PdoMap.entriesOf_eq_nil (by decide) outputsTyped, List.nil_append]
  cases type with
  | outputs =>
      simp only [outputsOf] at inside ⊢
      exact outputsLaid.placed rfl index inside
  | inputs =>
      simp only [inputsOf] at inside ⊢
      exact inputsLaid.placed rfl index inside
  | _ =>
      rw [PdoMap.entriesOf_append, PdoMap.entriesOf_eq_nil (by decide) outputsTyped,
        PdoMap.entriesOf_eq_nil (by decide) inputsTyped] at inside
      simp at inside

/-- Outputs that are laid from the start on, and then inputs that are laid from bit zero on,
are gapless.  The numbers of objects and entries go on from the outputs to the inputs. -/
theorem gapless_append (outputsTyped : ∀ assignment ∈ outputs, assignment.smType = .outputs)
    (inputsTyped : ∀ assignment ∈ inputs, assignment.smType = .inputs)
    (outputsAscend : (outputs.map PdoAssignment.sm).Pairwise (· < ·))
    (inputsAscend : (inputs.map PdoAssignment.sm).Pairwise (· < ·))
    (outputsLaid : PdosLaid .outputs Cursor.start outputs.pdos middle)
    (inputsLaid : PdosLaid .inputs { middle with bits := 0 } inputs.pdos stop) :
    PdoMap.Gapless (outputs ++ inputs) := by
  have pdosEq : PdoMap.pdos (outputs ++ inputs) = outputs.pdos ++ inputs.pdos := by
    simp [PdoMap.pdos]
  have entriesEq : PdoMap.entries (outputs ++ inputs) = outputs.entries ++ inputs.entries := by
    simp [PdoMap.entries]
  have laidEntries : ∀ info ∈ PdoMap.entries (outputs ++ inputs),
      (0 ≤ info.bitOffset ∧ info.bitOffset < 8) ∧ 0 ≤ info.bitLength := by
    intro info member
    rw [entriesEq, PdoMap.entries_eq_flatMap_pdos, PdoMap.entries_eq_flatMap_pdos] at member
    rcases List.mem_append.mp member with isOutput | isInput
    · exact outputsLaid.entries.offsets.inside info isOutput
    · exact inputsLaid.entries.offsets.inside info isInput
  refine ⟨?_, ?_, ?_, ?_, fun info member => (laidEntries info member).2,
    placed_append outputsTyped inputsTyped outputsLaid inputsLaid,
    fun info member => (laidEntries info member).1, ?_, ?_⟩
  · rw [List.pairwise_append]
    refine ⟨pairwise_precedes outputsTyped outputsAscend,
      pairwise_precedes inputsTyped inputsAscend, ?_⟩
    intro first firstMember second secondMember
    exact Or.inl ⟨outputsTyped first firstMember, inputsTyped second secondMember⟩
  · intro assignment member
    exact (List.mem_append.mp member).imp (outputsTyped assignment) (inputsTyped assignment)
  · intro assignment member
    rcases List.mem_append.mp member with isOutput | isInput
    · exact outputsLaid.typed outputsTyped assignment isOutput
    · exact inputsLaid.typed inputsTyped assignment isInput
  · intro pdo member
    rw [pdosEq] at member
    exact (List.mem_append.mp member).elim (outputsLaid.inhabited pdo) (inputsLaid.inhabited pdo)
  · have outputsPositions := outputsLaid.entries.positions
    have inputsPositions := inputsLaid.entries.positions
    have outputsCount := outputsLaid.entries.count
    simp only [← PdoMap.entries_eq_flatMap_pdos] at outputsPositions inputsPositions outputsCount
    rw [entriesEq, List.map_append, outputsPositions, inputsPositions, List.length_append,
      List.range_eq_range', ← List.range'_append_1, outputsCount]
    rfl
  · rw [pdosEq, List.map_append, outputsLaid.positions, inputsLaid.positions,
      List.length_append, List.range_eq_range', ← List.range'_append_1, outputsLaid.count]
    rfl

end Directions

section Law

variable {ε : Type} [Engine ε] {dictionary : Option ObjectDictionary} {slave : Int}
  {timeout : Number} {session after : Session ε} {map : PdoMap}

/-- The numbers of the process-data sync managers among the reported types; none is
considered beyond the eighth. -/
def considered (count : Nat) : List Nat :=
  List.range' 2 (min (count - 1) 8 - 1)

theorem mem_considered {count sm : Nat} :
    sm ∈ considered count ↔ 2 ≤ sm ∧ sm ≤ min (count - 1) 8 := by
  rw [considered, List.mem_range'_1]
  omega

theorem considered_eq_nil {count : Nat} (few : count ≤ 2) : considered count = [] := by
  rw [considered, show min (count - 1) 8 - 1 = 0 by omega]
  rfl

/-- The types are read right after their number, so later answers do not hide them. -/
theorem typeCode?_cons_append {types : Transcript} {sm : Nat} (data : Bytes)
    (later : Transcript) (known : (types.typeCode? sm).isSome) :
    Transcript.typeCode? (⟨⟨typesIndex, 0⟩, 1, data⟩ :: (types ++ later)) sm =
      types.typeCode? sm := by
  rw [Transcript.typeCode?, Transcript.number?_cons, if_neg (by simp; omega)]
  exact Transcript.number?_append_of_isSome known later

def withCode (transcript : Transcript) (count code : Nat) : List Int :=
  ((considered count).filter fun sm => transcript.typeCode? sm = some code).map
    fun sm : Nat => (sm : Int)

theorem mem_withCode {transcript : Transcript} {count code : Nat} {sm : Int} :
    sm ∈ withCode transcript count code ↔
      ∃ number : Nat, sm = number ∧ 2 ≤ number ∧ number ≤ min (count - 1) 8 ∧
        transcript.typeCode? number = some code := by
  simp only [withCode, List.mem_map, List.mem_filter, mem_considered, decide_eq_true_eq]
  constructor
  · rintro ⟨number, ⟨⟨low, high⟩, coded⟩, rfl⟩
    exact ⟨number, rfl, low, high, coded⟩
  · rintro ⟨number, rfl, low, high, coded⟩
    exact ⟨number, ⟨⟨low, high⟩, coded⟩, rfl⟩

/-- The sync managers of a type are told by the answers that were read first. -/
theorem map_ofType_eq_withCode {types : List (Nat × SyncManagerType)} {typeAnswers : Transcript}
    {count : Nat} {type : SyncManagerType}
    (known : ∀ sm ∈ considered count, (typeAnswers.typeCode? sm).isSome)
    (filtered : ofType type types =
      (considered count).filter fun sm => typeAnswers.typeCode? sm = some type.code)
    (data : Bytes) (later : Transcript) :
    (ofType type types).map (fun sm : Nat => (sm : Int)) =
      withCode (⟨⟨typesIndex, 0⟩, 1, data⟩ :: (typeAnswers ++ later)) count type.code := by
  rw [filtered, withCode]
  apply congrArg
  apply List.filter_congr
  intro sm member
  rw [typeCode?_cons_append _ _ (known sm member)]

theorem withCode_ascending (transcript : Transcript) (count code : Nat) :
    (withCode transcript count code).Pairwise (· < ·) := by
  rw [withCode, List.pairwise_map]
  exact (List.Pairwise.filter _ List.pairwise_lt_range').imp Int.ofNat_lt.mpr

/-- Outputs that are laid from the start on, and then inputs, one assignment for each sync manager
that some answers report for its direction, with what the answers tell of it. -/
structure LaidBy (transcript : Transcript) (count : Nat) (outputs inputs : PdoMap) : Prop where
  counted : transcript.typeCount? = some count
  known : ∀ sm ∈ considered count, (transcript.typeCode? sm).isSome
  outputSms : outputs.map PdoAssignment.sm = withCode transcript count 3
  inputSms : inputs.map PdoAssignment.sm = withCode transcript count 4
  outputsTyped : ∀ assignment ∈ outputs, assignment.smType = .outputs
  inputsTyped : ∀ assignment ∈ inputs, assignment.smType = .inputs
  laid : ∃ middle stop, PdosLaid .outputs Cursor.start outputs.pdos middle ∧
    PdosLaid .inputs { middle with bits := 0 } inputs.pdos stop
  told : ∃ types words sms, transcript = types ++ words ∧
    Told TellsAssignment sms words (outputs ++ inputs)

/-- A layout that succeeds is laid by the answers that it got. -/
theorem resolve_ok (resolved : resolve dictionary slave timeout session = .ok map after) :
    ∃ transcript count outputs inputs,
      Transcript.Leads slave timeout session.engine transcript after.engine ∧
      map = outputs ++ inputs ∧ LaidBy transcript count outputs inputs := by
  obtain ⟨count, counted, countRan, bodyRan⟩ := Action.bind_eq_ok_iff.mp resolved
  obtain ⟨countData, countAnswered, _, countEq⟩ := readUnsigned_ok countRan
  have counts (rest : Transcript) :
      Transcript.typeCount? (⟨⟨typesIndex, 0⟩, 1, countData⟩ :: rest) = some count := by
    simp [Transcript.typeCount?, Transcript.number?_cons, countEq]
  by_cases few : count ≤ 2
  · simp only [few, if_true, Action.bind_eq_ok_iff, Session.warn_apply] at bodyRan
    obtain ⟨_, warned, warnedEq, done⟩ := bodyRan
    cases warnedEq
    cases done
    have none := considered_eq_nil few
    refine ⟨_, count, [], [], .cons countAnswered (.nil _), rfl, counts [], by simp [none],
      by simp [withCode, none], by simp [withCode, none], by simp, by simp, ?_, ?_⟩
    · exact ⟨Cursor.start, { Cursor.start with bits := 0 }, PdosLaid.nil _ _, PdosLaid.nil _ _⟩
    · exact ⟨_, [], [], (List.append_nil _).symm, .nil⟩
  · simp only [few, if_false] at bodyRan
    obtain ⟨last, limited, lastRan, typesRan⟩ := Action.bind_eq_ok_iff.mp bodyRan
    obtain ⟨limitedEngine, lastEq⟩ := lastSyncManager_ok lastRan
    obtain ⟨types, typed, typesRead, outputsRan⟩ := Action.bind_eq_ok_iff.mp typesRan
    obtain ⟨⟨outputs, middle⟩, written, outputsRead, inputsRan⟩ :=
      Action.bind_eq_ok_iff.mp outputsRan
    obtain ⟨⟨inputs, stop⟩, finished, inputsRead, done⟩ := Action.bind_eq_ok_iff.mp inputsRan
    obtain ⟨rfl, rfl⟩ := Action.pure_eq_ok_iff.mp done
    have consideredEq : List.range' 2 (last - 1) = considered count := by
      rw [lastEq, considered, maxSyncManagers]
    rw [consideredEq] at typesRead
    obtain ⟨typeAnswers, typesLead, known, ofTypes⟩ :=
      readTypes_ok List.nodup_range' typesRead
    obtain ⟨⟨outputWords, outputsLead, outputsTold⟩, outputSms, outputsTyped, outputsLaid⟩ :=
      readAssignments_ok outputsRead
    obtain ⟨⟨inputWords, inputsLead, inputsTold⟩, inputSms, inputsTyped, inputsLaid⟩ :=
      readAssignments_ok inputsRead
    rw [limitedEngine] at typesLead
    have ofOutputs := ofTypes .outputs (by simp) (by simp)
    have ofInputs := ofTypes .inputs (by simp) (by simp)
    refine ⟨_, count, outputs, inputs,
      .cons countAnswered (typesLead.append (outputsLead.append inputsLead)), rfl, counts _, ?_,
      outputSms.trans (map_ofType_eq_withCode known ofOutputs _ _),
      inputSms.trans (map_ofType_eq_withCode known ofInputs _ _),
      outputsTyped, inputsTyped, ⟨middle, stop, outputsLaid, inputsLaid⟩, ?_⟩
    · intro sm member
      rw [typeCode?_cons_append _ _ (known sm member)]
      exact known sm member
    · exact ⟨⟨⟨typesIndex, 0⟩, 1, countData⟩ :: typeAnswers, outputWords ++ inputWords, _, rfl,
        outputsTold.append inputsTold⟩

theorem mem_assigned_iff {type other : SyncManagerType} {sms : List Int} {sm : Int}
    (sameSms : map.map PdoAssignment.sm = sms)
    (typed : ∀ assignment ∈ map, assignment.smType = type) :
    (∃ assignment ∈ map, assignment.sm = sm ∧ assignment.smType = other) ↔
      other = type ∧ sm ∈ sms := by
  rw [← sameSms]
  constructor
  · rintro ⟨assignment, member, rfl, rfl⟩
    exact ⟨typed assignment member, List.mem_map_of_mem member⟩
  · rintro ⟨rfl, member⟩
    obtain ⟨assignment, inside, found⟩ := List.mem_map.mp member
    exact ⟨assignment, inside, found, typed assignment inside⟩

theorem nodup_withCode_append (transcript : Transcript) (count : Nat) :
    (withCode transcript count 3 ++ withCode transcript count 4).Nodup := by
  rw [List.nodup_append]
  refine ⟨(withCode_ascending transcript count 3).imp ne_of_lt,
    (withCode_ascending transcript count 4).imp ne_of_lt, ?_⟩
  intro output isOutput input isInput equal
  obtain ⟨number, outputEq, _, _, three⟩ := mem_withCode.mp isOutput
  obtain ⟨other, inputEq, _, _, four⟩ := mem_withCode.mp isInput
  have same : number = other := by omega
  rw [same, four] at three
  cases three

/-- A process-data sync manager that a slave reports as one of outputs or of inputs. -/
def Reported (transcript : Transcript) (count : Nat) (sm : Int) (type : SyncManagerType) :
    Prop :=
  ∃ number : Nat, sm = number ∧ 2 ≤ number ∧ number ≤ min (count - 1) 8 ∧
    ((type = .outputs ∧ transcript.typeCode? number = some 3) ∨
      (type = .inputs ∧ transcript.typeCode? number = some 4))

theorem reported_iff {transcript : Transcript} {count : Nat} {sm : Int}
    {type : SyncManagerType} :
    Reported transcript count sm type ↔
      (type = .outputs ∧ sm ∈ withCode transcript count 3) ∨
        (type = .inputs ∧ sm ∈ withCode transcript count 4) := by
  simp only [mem_withCode]
  constructor
  · rintro ⟨number, smEq, low, high, ⟨isOutput, coded⟩ | ⟨isInput, coded⟩⟩
    · exact Or.inl ⟨isOutput, number, smEq, low, high, coded⟩
    · exact Or.inr ⟨isInput, number, smEq, low, high, coded⟩
  · rintro (⟨isOutput, number, smEq, low, high, coded⟩ | ⟨isInput, number, smEq, low, high, coded⟩)
    · exact ⟨number, smEq, low, high, Or.inl ⟨isOutput, coded⟩⟩
    · exact ⟨number, smEq, low, high, Or.inr ⟨isInput, coded⟩⟩

/-- A map is the layout of what a slave reported.  It is gapless, its assignments are
those of the sync managers that are reported as outputs or inputs, each once, with the objects
and the entries that the answers tell, and the sizes of both directions are where their last
entries end. -/
structure LayoutOf (transcript : Transcript) (count : Nat) (map : PdoMap) : Prop where
  counted : transcript.typeCount? = some count
  known : ∀ sm, 2 ≤ sm → sm ≤ min (count - 1) 8 → (transcript.typeCode? sm).isSome
  assigned : ∀ sm type,
    (∃ assignment ∈ map, assignment.sm = sm ∧ assignment.smType = type) ↔
      Reported transcript count sm type
  once : (map.map PdoAssignment.sm).Nodup
  told : ∃ types words sms, transcript = types ++ words ∧ Told TellsAssignment sms words map
  gapless : map.Gapless
  sizes : map.bitSizes = .ok (map.stopOf .outputs, map.stopOf .inputs)

namespace LaidBy

variable {transcript : Transcript} {count : Nat} {outputs inputs : PdoMap}

theorem gapless (laidBy : LaidBy transcript count outputs inputs) :
    PdoMap.Gapless (outputs ++ inputs) := by
  obtain ⟨middle, stop, outputsLaid, inputsLaid⟩ := laidBy.laid
  exact gapless_append laidBy.outputsTyped laidBy.inputsTyped
    (laidBy.outputSms ▸ withCode_ascending transcript count 3)
    (laidBy.inputSms ▸ withCode_ascending transcript count 4) outputsLaid inputsLaid

theorem layoutOf (laidBy : LaidBy transcript count outputs inputs) :
    LayoutOf transcript count (outputs ++ inputs) where
  counted := laidBy.counted
  known := fun sm low high => laidBy.known sm (mem_considered.mpr ⟨low, high⟩)
  assigned := by
    intro sm type
    rw [reported_iff, ← mem_assigned_iff laidBy.outputSms laidBy.outputsTyped,
      ← mem_assigned_iff laidBy.inputSms laidBy.inputsTyped]
    simp only [List.mem_append, or_and_right, exists_or]
  once := by
    rw [List.map_append, laidBy.outputSms, laidBy.inputSms]
    exact nodup_withCode_append transcript count
  told := laidBy.told
  gapless := laidBy.gapless
  sizes := laidBy.gapless.bitSizes_eq

end LaidBy

theorem gapless_of_resolve (resolved : resolve dictionary slave timeout session = .ok map after) :
    map.Gapless := by
  obtain ⟨_, _, _, _, _, rfl, laid⟩ := resolve_ok resolved
  exact laid.gapless

/-- A layout that succeeds is the layout of the answers that it got. -/
theorem layoutOf_resolve (resolved : resolve dictionary slave timeout session = .ok map after) :
    ∃ transcript count, Transcript.Leads slave timeout session.engine transcript after.engine ∧
      LayoutOf transcript count map := by
  obtain ⟨transcript, count, outputs, inputs, leads, rfl, laid⟩ := resolve_ok resolved
  exact ⟨transcript, count, leads, laid.layoutOf⟩

end Law

def mappingWord (index subindex bitLength : Nat) : Bytes :=
  Bytes.ofNat 4 (index * 0x10000 + subindex * 0x100 + bitLength)

/-- A slave whose sync manager 2 carries inputs and whose sync managers 3 and 4 carry
outputs, the second of which starts inside a byte. -/
def interleavedSlave : SimulatedSlave :=
  { SimulatedSlave.plain with
    mailbox := [
      (⟨0x1c00, 0⟩, [.data [5]]), (⟨0x1c00, 3⟩, [.data [4]]),
      (⟨0x1c00, 4⟩, [.data [3]]), (⟨0x1c00, 5⟩, [.data [3]]),
      (⟨0x1c12, 0⟩, [.data [1]]), (⟨0x1c12, 1⟩, [.data [0x00, 0x1a]]),
      (⟨0x1a00, 0⟩, [.data [1]]), (⟨0x1a00, 1⟩, [.data (mappingWord 0x6000 1 16)]),
      (⟨0x1c13, 0⟩, [.data [1]]), (⟨0x1c13, 1⟩, [.data [0x00, 0x16]]),
      (⟨0x1600, 0⟩, [.data [2]]), (⟨0x1600, 1⟩, [.data (mappingWord 0x7000 1 1)]),
      (⟨0x1600, 2⟩, [.data (mappingWord 0x7000 2 16)]),
      (⟨0x1c14, 0⟩, [.data [1]]), (⟨0x1c14, 1⟩, [.data [0x01, 0x16]]),
      (⟨0x1601, 0⟩, [.data [1]]), (⟨0x1601, 1⟩, [.data (mappingWord 0x7000 3 8)])] }

def sessionWith (slave : SimulatedSlave) : Session MemoryEngine :=
  ⟨.ofSegment { Segment.bare with slaves := [slave] }, #[]⟩

/-- The layout of a slave with interleaved directions puts its outputs first. -/
theorem layoutOf_resolve_interleaved :
    ∃ map after,
      resolve none 0 defaultTimeout (sessionWith interleavedSlave) = .ok map after ∧
      map.map PdoAssignment.sm = [3, 4, 2] ∧
      ∃ transcript count,
        Transcript.Leads 0 defaultTimeout (sessionWith interleavedSlave).engine transcript
          after.engine ∧
        LayoutOf transcript count map := by
  have succeeds : (Action.result?
      (resolve none 0 defaultTimeout (sessionWith interleavedSlave))).map
        (·.map PdoAssignment.sm) = some [3, 4, 2] := by
    decide +kernel
  obtain ⟨map, found, sms⟩ := Option.map_eq_some_iff.mp succeeds
  obtain ⟨after, resolved⟩ := Action.exists_ok_of_result? found
  exact ⟨map, after, resolved, sms, layoutOf_resolve resolved⟩

end Layout

end Fieldbus
