import Fieldbus.BusConfig
import Fieldbus.Proofs.Number.Rounding
import Fieldbus.Proofs.Outcome
import Mathlib.Data.List.Forall2

/-!
# Settings of a file

A file of settings is refused as a configuration, or it gives times that are greater than zero and
a default for every setting that it does not name.  Four kinds of files come to something else: a
document that nests too deep, one that is no object, one with a time that is too great an integer,
and one with a time that is not a number.
-/

namespace Fieldbus

theorem Binary64.zero_lt_iff {number : Binary64} :
    Binary64.zero.lt number = true ↔ number.isNaN = false ∧ number.le Binary64.zero = false := by
  have zero : Binary64.zero.isNaN = false := by decide
  cases isNaN : number.isNaN with
  | true => simp [lt, isNaN]
  | false => simp [lt, le, isNaN, zero]

namespace Json

variable {value : Json} {number : Int} {accident : Accident}

theorem toReal_int (number : Int) :
    toReal (.int number) = (Binary64.ofInt? number).elim (.error .overflow) .ok := by
  rw [toReal, Payload.ofJson, Payload.number]
  nofun

theorem toReal_of_great (great : Binary64.midpoint ≤ number.natAbs) :
    toReal (.int number) = .error .overflow := by
  rw [toReal_int, Binary64.ofInt?_eq_none_iff.mpr great, Option.elim_none]

/-- A document is read as a number, but for an integer that is too great and for documents of
other kinds. -/
theorem toReal_error_cases (failed : value.toReal = .error accident) :
    accident = .kind ∨ accident = .value ∨
      accident = .overflow ∧ ∃ number, value = .int number ∧
        Binary64.midpoint ≤ number.natAbs := by
  cases value with
  | text content =>
      simp only [toReal] at failed
      split at failed
      · cases failed
      · cases failed
        exact Or.inr (Or.inl rfl)
  | int number =>
      rw [toReal_int] at failed
      cases rounded : Binary64.ofInt? number with
      | some nearest =>
          rw [rounded] at failed
          cases failed
      | none =>
          rw [rounded] at failed
          cases failed
          exact Or.inr (Or.inr ⟨rfl, number, rfl, Binary64.ofInt?_eq_none_iff.mp rounded⟩)
  | bool truth => simp [toReal, Payload.ofJson, Payload.number] at failed
  | real number => simp [toReal, Payload.ofJson, Payload.number] at failed
  | null | array items | object fields =>
      cases failed
      exact Or.inl rfl

end Json

namespace BusConfig

def times : List (String × Binary64) :=
  [("cycle_ms", .ofNat 1), ("sdo_timeout_ms", .ofNat 3000), ("recv_timeout_us", .ofNat 2000)]

def settings : List (String × (BusConfig → Payload)) :=
  [("adapter", adapter), ("cycle_ms", cycleMs), ("sdo_timeout_ms", sdoTimeoutMs),
    ("recv_timeout_us", recvTimeoutUs), ("strict_discovery", strictDiscovery),
    ("strict_pdo_size", strictPdoSize), ("configure_pdo", configurePdo)]

/-- The number that an object has for a time: the one it names, or the default. -/
def readTime (network : List (Text × Json)) (time : String × Binary64) :
    Except Accident Binary64 :=
  match Json.field? network time.1 with
  | some value => value.toReal
  | none => .ok time.2

/-- The `network` object of a document, which is empty if the document names none. -/
inductive HasNetwork : Json → List (Text × Json) → Prop
  | named {fields network : List (Text × Json)}
      (found : Json.field? fields "network" = some (.object network)) :
      HasNetwork (.object fields) network
  | absent {fields : List (Text × Json)} (missing : Json.field? fields "network" = none) :
      HasNetwork (.object fields) []

theorem HasNetwork.unique {document : Json} {network other : List (Text × Json)}
    (has : HasNetwork document network) (hasOther : HasNetwork document other) :
    network = other := by
  cases has with
  | named found =>
      cases hasOther with
      | named otherFound =>
          cases found.symm.trans otherFound
          rfl
      | absent missing => cases found.symm.trans missing
  | absent missing =>
      cases hasOther with
      | named found => cases found.symm.trans missing
      | absent _ => rfl

/-- All times are greater than zero, and what the object does not name has its default. -/
structure Sound (network : List (Text × Json)) (config : BusConfig) : Prop where
  positive : ∀ setting ∈ [config.cycleMs, config.sdoTimeoutMs, config.recvTimeoutUs],
    ∃ number, setting = .real number ∧ Binary64.zero.lt number = true
  inherits : ∀ setting ∈ settings, Json.field? network setting.1 = none →
    setting.2 config = setting.2 defaults

/-- An object that is not judged as it should be: it has too great an integer for a time after
others that can be read, or its times can be read, but not all of them are numbers. -/
inductive Misjudged (network : List (Text × Json)) : Prop
  | tooGreat {before rest : List (String × Binary64)} {time : String × Binary64} {value : Int}
      (order : times = before ++ time :: rest)
      (readable : ∀ earlier ∈ before, ∃ number, readTime network earlier = .ok number)
      (named : Json.field? network time.1 = some (.int value))
      (great : Binary64.midpoint ≤ value.natAbs) : Misjudged network
  | undefined {numbers : List Binary64}
      (readable : List.Forall₂ (fun time number => readTime network time = .ok number)
        times numbers)
      (passes : ∀ number ∈ numbers, number.le Binary64.zero = false)
      (isNaN : ∃ number ∈ numbers, number.isNaN = true) : Misjudged network

variable {path : Text} {network : List (Text × Json)} {time : String × Binary64}
  {before rest : List (String × Binary64)} {accident : Accident}
  {cycle sdoTimeout recvTimeout : Binary64}

def timeFault (path : Text) : Accident → Fault
  | .kind | .value => .configuration (.networkInvalid path)
  | accident => .accident accident

theorem readTime_of_missing (missing : Json.field? network time.1 = none) :
    readTime network time = .ok time.2 := by
  rw [readTime, missing]

theorem numberField_eq (path : Text) (network : List (Text × Json)) (name : String)
    (default : Binary64) : numberField path network name (.real default) =
      (readTime network (name, default)).mapError (timeFault path) := by
  rw [numberField, readTime]
  cases Json.field? network name with
  | none => rfl
  | some value =>
      dsimp only
      cases value.toReal with
      | ok number => rfl
      | error accident => cases accident <;> rfl

/-- All times of an object can be read, or one is the first that cannot. -/
theorem reads_or_fails (network : List (Text × Json)) (times : List (String × Binary64)) :
    (∃ numbers, List.Forall₂ (fun time number => readTime network time = .ok number)
        times numbers) ∨
      ∃ before time rest accident, times = before ++ time :: rest ∧
        (∀ earlier ∈ before, ∃ number, readTime network earlier = .ok number) ∧
        readTime network time = .error accident := by
  induction times with
  | nil => exact Or.inl ⟨[], .nil⟩
  | cons time rest ih =>
      cases outcome : readTime network time with
      | error accident =>
          exact Or.inr ⟨[], time, rest, accident, rfl, by simp, outcome⟩
      | ok number =>
          rcases ih with ⟨numbers, reads⟩ | ⟨before, later, after, accident, rfl, reads, fails⟩
          · exact Or.inl ⟨number :: numbers, .cons outcome reads⟩
          · refine Or.inr ⟨time :: before, later, after, accident, rfl, ?_, fails⟩
            simpa using ⟨⟨number, outcome⟩, fun name default => reads (name, default)⟩

/-- The first time that cannot be read is what the object is refused for. -/
theorem ofNetwork_of_fails (path : Text) (order : times = before ++ time :: rest)
    (readable : ∀ earlier ∈ before, ∃ number, readTime network earlier = .ok number)
    (fails : readTime network time = .error accident) :
    ofNetwork path network = .error (timeFault path accident) := by
  rw [ofNetwork, defaults]
  simp only [numberField_eq]
  obtain _ | ⟨first, _ | ⟨second, _ | ⟨third, before⟩⟩⟩ := before
  · simp only [times, List.nil_append, List.cons.injEq] at order
    obtain ⟨rfl, rfl⟩ := order
    rw [fails]
    rfl
  · simp only [times, List.cons_append, List.nil_append, List.cons.injEq] at order
    obtain ⟨rfl, rfl, rfl⟩ := order
    obtain ⟨number, read⟩ := readable _ (List.mem_cons_self ..)
    rw [read, fails]
    rfl
  · simp only [times, List.cons_append, List.nil_append, List.cons.injEq] at order
    obtain ⟨rfl, rfl, rfl, rfl⟩ := order
    obtain ⟨number, read⟩ := readable _ (List.mem_cons_self ..)
    obtain ⟨other, otherRead⟩ := readable _ (List.mem_cons_of_mem _ (List.mem_cons_self ..))
    rw [read, otherRead, fails]
    rfl
  · simp [times] at order

/-- The times and the switches of an object that is accepted. -/
structure Holds (network : List (Text × Json)) (cycle sdoTimeout recvTimeout : Binary64)
    (config : BusConfig) : Prop where
  cycle : config.cycleMs = .real cycle
  sdoTimeout : config.sdoTimeoutMs = .real sdoTimeout
  recvTimeout : config.recvTimeoutUs = .real recvTimeout
  inherits : ∀ setting ∈ settings, Json.field? network setting.1 = none →
    setting.2 config = setting.2 defaults

section Reads

variable (cycleRead : readTime network ("cycle_ms", .ofNat 1) = .ok cycle)
  (sdoRead : readTime network ("sdo_timeout_ms", .ofNat 3000) = .ok sdoTimeout)
  (recvRead : readTime network ("recv_timeout_us", .ofNat 2000) = .ok recvTimeout)
include cycleRead sdoRead recvRead

/-- An object whose times can be read is refused for one that passes for zero or less. -/
theorem ofNetwork_of_le (path : Text)
    (le : ∃ number ∈ [cycle, sdoTimeout, recvTimeout], number.le Binary64.zero = true) :
    ∃ cause, ofNetwork path network = .error (.configuration cause) := by
  rw [ofNetwork, defaults]
  simp only [numberField_eq, cycleRead, sdoRead, recvRead, Except.mapError, Bind.bind, Except.bind]
  by_cases short : cycle.le Binary64.zero = true
  · rw [if_pos short]
    exact ⟨_, rfl⟩
  · rw [if_neg short]
    have timeouts : (sdoTimeout.le Binary64.zero || recvTimeout.le Binary64.zero) = true := by
      simpa [short] using le
    rw [if_pos timeouts]
    exact ⟨_, rfl⟩

/-- An object whose times pass has all settings of its own or by default. -/
theorem ofNetwork_of_passes (path : Text)
    (passes : ∀ number ∈ [cycle, sdoTimeout, recvTimeout], number.le Binary64.zero = false) :
    ∃ config, ofNetwork path network = .ok config ∧
      Holds network cycle sdoTimeout recvTimeout config := by
  simp only [List.mem_cons, List.not_mem_nil, or_false, forall_eq_or_imp, forall_eq] at passes
  obtain ⟨cyclePasses, sdoPasses, recvPasses⟩ := passes
  rw [ofNetwork, defaults]
  simp only [numberField_eq, cycleRead, sdoRead, recvRead, Except.mapError, Bind.bind, Except.bind,
    cyclePasses, sdoPasses, recvPasses, Bool.or_self, Bool.false_eq_true, if_false]
  refine ⟨_, rfl, rfl, rfl, rfl, ?_⟩
  intro setting listed missing
  simp only [settings, List.mem_cons, List.not_mem_nil, or_false] at listed
  rcases listed with rfl | rfl | rfl | rfl | rfl | rfl | rfl
  · simp only [missing]
    rfl
  · exact congrArg Payload.real (Except.ok.inj (cycleRead.symm.trans (readTime_of_missing missing)))
  · exact congrArg Payload.real (Except.ok.inj (sdoRead.symm.trans (readTime_of_missing missing)))
  · exact congrArg Payload.real (Except.ok.inj (recvRead.symm.trans (readTime_of_missing missing)))
  · simp only [missing]
    rfl
  · simp only [missing]
    rfl
  · simp only [missing]
    rfl

end Reads

theorem Holds.sound {config : BusConfig} (holds : Holds network cycle sdoTimeout recvTimeout config)
    (positive : ∀ number ∈ [cycle, sdoTimeout, recvTimeout], Binary64.zero.lt number = true) :
    Sound network config := by
  refine ⟨?_, holds.inherits⟩
  rw [holds.cycle, holds.sdoTimeout, holds.recvTimeout]
  simpa using positive

theorem exists_times {numbers : List Binary64}
    (reads : List.Forall₂ (fun time number => readTime network time = .ok number) times numbers) :
    ∃ cycle sdoTimeout recvTimeout, numbers = [cycle, sdoTimeout, recvTimeout] ∧
      readTime network ("cycle_ms", .ofNat 1) = .ok cycle ∧
      readTime network ("sdo_timeout_ms", .ofNat 3000) = .ok sdoTimeout ∧
      readTime network ("recv_timeout_us", .ofNat 2000) = .ok recvTimeout := by
  obtain _ | ⟨cycle, _ | ⟨sdo, _ | ⟨recv, _ | _⟩⟩⟩ := reads
  exact ⟨_, _, _, rfl, cycle, sdo, recv⟩

/-- An object is refused as a configuration or gives sound settings. -/
def SettlesNetwork (path : Text) (network : List (Text × Json)) : Prop :=
  (∃ cause, ofNetwork path network = .error (.configuration cause)) ∨
    ∃ config, ofNetwork path network = .ok config ∧ Sound network config

theorem settlesNetwork_of_not_misjudged (judged : ¬ Misjudged network) (path : Text) :
    SettlesNetwork path network := by
  rcases reads_or_fails network times with ⟨numbers, reads⟩ |
      ⟨before, time, rest, accident, order, readable, fails⟩
  · obtain ⟨cycle, sdo, recv, rfl, cycleRead, sdoRead, recvRead⟩ := exists_times reads
    by_cases le : ∃ number ∈ [cycle, sdo, recv], number.le Binary64.zero = true
    · exact Or.inl (ofNetwork_of_le cycleRead sdoRead recvRead path le)
    · have passes : ∀ number ∈ [cycle, sdo, recv], number.le Binary64.zero = false := by
        intro number listed
        by_contra refused
        exact le ⟨number, listed, by simpa using refused⟩
      obtain ⟨config, accepted, holds⟩ :=
        ofNetwork_of_passes cycleRead sdoRead recvRead path passes
      refine Or.inr ⟨config, accepted, holds.sound ?_⟩
      intro number listed
      rw [Binary64.zero_lt_iff]
      refine ⟨?_, passes number listed⟩
      by_contra isNaN
      exact judged (.undefined reads passes ⟨number, listed, by simpa using isNaN⟩)
  · have refused := ofNetwork_of_fails path order readable fails
    rw [readTime] at fails
    cases named : Json.field? network time.1 with
    | none =>
        rw [named] at fails
        cases fails
    | some value =>
        rw [named] at fails
        rcases Json.toReal_error_cases fails with rfl | rfl | ⟨rfl, number, rfl, great⟩
        · exact Or.inl ⟨_, refused⟩
        · exact Or.inl ⟨_, refused⟩
        · exact absurd (.tooGreat order readable named great) judged

/-- An object that is misjudged is not refused as a configuration, and its settings are not
sound. -/
theorem Misjudged.not_settlesNetwork (misjudged : Misjudged network) (path : Text) :
    ¬ SettlesNetwork path network := by
  cases misjudged with
  | @tooGreat before rest time value order readable named great =>
      have fails : readTime network time = .error .overflow := by
        rw [readTime, named]
        exact Json.toReal_of_great great
      rw [SettlesNetwork, ofNetwork_of_fails path order readable fails]
      rintro (⟨cause, same⟩ | ⟨config, same, -⟩)
      · cases same
      · cases same
  | @undefined numbers reads passes isNaN =>
      obtain ⟨cycle, sdo, recv, rfl, cycleRead, sdoRead, recvRead⟩ := exists_times reads
      obtain ⟨config, accepted, holds⟩ :=
        ofNetwork_of_passes cycleRead sdoRead recvRead path passes
      rw [SettlesNetwork, accepted]
      rintro (⟨cause, same⟩ | ⟨other, same, sound⟩)
      · cases same
      · cases same
        obtain ⟨number, listed, isNaN⟩ := isNaN
        have positive := sound.positive
        rw [holds.cycle, holds.sdoTimeout, holds.recvTimeout] at positive
        obtain ⟨_, ⟨⟩, greater⟩ := positive (.real number) (by simpa using listed)
        rw [Binary64.zero_lt_iff, isNaN] at greater
        cases greater.1

/-- A file that is not judged as it should be: its document nests too deep or is no object, or the
`network` object in it is misjudged. -/
inductive IsMisread : Option Bytes → Prop
  | tooDeep {content : Bytes} (refused : Json.ofBytes content = .error .tooDeep) :
      IsMisread (some content)
  | noObject {content : Bytes} {document : Json} (reads : Json.ofBytes content = .ok document)
      (other : ∀ fields, document ≠ .object fields) : IsMisread (some content)
  | network {content : Bytes} {document : Json} {network : List (Text × Json)}
      (reads : Json.ofBytes content = .ok document) (has : HasNetwork document network)
      (misjudged : Misjudged network) : IsMisread (some content)

section Load

variable {content : Bytes} {document : Json} {fields : List (Text × Json)}

theorem load_of_hasNetwork (path : Text) (reads : Json.ofBytes content = .ok document)
    (has : HasNetwork document network) : load path (some content) = ofNetwork path network := by
  rw [load, Option.map_some, reads]
  cases has with
  | named found => simp only [found, Option.getD_some]
  | absent missing => simp only [missing, Option.getD_none]

theorem load_of_noObject (path : Text) (reads : Json.ofBytes content = .ok document)
    (other : ∀ fields, document ≠ .object fields) :
    load path (some content) = .error (.accident .noPart) := by
  rw [load, Option.map_some, reads]
  cases document with
  | object fields => exact absurd rfl (other fields)
  | _ => rfl

theorem load_of_malformed (path : Text) (refused : Json.ofBytes content = .error .malformed) :
    load path (some content) = .error (.configuration (.unreadable "bus" path)) := by
  rw [load, Option.map_some, refused]

theorem load_of_tooDeep (path : Text) (refused : Json.ofBytes content = .error .tooDeep) :
    load path (some content) = .error (.accident .depth) := by
  rw [load, Option.map_some, refused]

/-- An object has a `network` object, or something else in its place. -/
theorem hasNetwork_or_refused (path : Text) (reads : Json.ofBytes content = .ok (.object fields)) :
    (∃ network, HasNetwork (.object fields) network) ∨
      load path (some content) = .error (.configuration (.networkNotObject path)) := by
  rw [load, Option.map_some, reads]
  cases found : Json.field? fields "network" with
  | none => exact Or.inl ⟨[], .absent found⟩
  | some value =>
      cases value with
      | object network => exact Or.inl ⟨network, .named found⟩
      | _ => exact Or.inr (by simp only [found, Option.getD_some])

end Load

/-- Loading a file refuses it as a configuration, or gives times that are greater than zero and a
default for whatever its `network` object does not name. -/
def Settles (path : Text) (content : Option Bytes) : Prop :=
  (∃ cause, load path content = .error (.configuration cause)) ∨
    ∃ config bytes document network, load path content = .ok config ∧ content = some bytes ∧
      Json.ofBytes bytes = .ok document ∧ HasNetwork document network ∧ Sound network config

/-- Whatever a file holds, loading it settles unless the file is misread. -/
theorem load_settles_iff (path : Text) (content : Option Bytes) :
    Settles path content ↔ ¬ IsMisread content := by
  rw [Settles]
  constructor
  · rintro settled misread
    cases misread with
    | tooDeep refused =>
        rw [load_of_tooDeep path refused] at settled
        simp at settled
    | noObject reads other =>
        rw [load_of_noObject path reads other] at settled
        simp at settled
    | network reads has misjudged =>
        apply misjudged.not_settlesNetwork path
        rw [load_of_hasNetwork path reads has] at settled
        rcases settled with refused | ⟨config, _, document, other, accepted, ⟨⟩, same, hasOther,
          sound⟩
        · exact Or.inl refused
        · cases reads.symm.trans same
          cases has.unique hasOther
          exact Or.inr ⟨config, accepted, sound⟩
  · intro judged
    cases content with
    | none => exact Or.inl ⟨_, rfl⟩
    | some bytes =>
        cases reads : Json.ofBytes bytes with
        | error refusal =>
            cases refusal with
            | malformed => exact Or.inl ⟨_, load_of_malformed path reads⟩
            | tooDeep => exact absurd (.tooDeep reads) judged
        | ok document =>
            by_cases isObject : ∃ fields, document = .object fields
            · obtain ⟨fields, rfl⟩ := isObject
              rcases hasNetwork_or_refused path reads with ⟨network, has⟩ | refused
              · have right : ¬ Misjudged network := fun wrong => judged (.network reads has wrong)
                rw [load_of_hasNetwork path reads has]
                have settled := settlesNetwork_of_not_misjudged right path
                rcases settled with refused | ⟨config, accepted, sound⟩
                · exact Or.inl refused
                · exact Or.inr ⟨config, bytes, _, network, accepted, rfl, reads, has, sound⟩
              · exact Or.inl ⟨_, refused⟩
            · exact absurd (.noObject reads fun fields same => isObject ⟨fields, same⟩) judged

/-- A file that names no number for its cycle. -/
def undefinedFile : Bytes :=
  Utf8.encodeChars "\x7b\"network\": \x7b\"cycle_ms\": NaN\x7d\x7d".toList

def undefinedNetwork : List (Text × Json) :=
  [(Text.ofString "cycle_ms", .real Binary64.nan)]

theorem undefinedFile_read : Json.ofBytes undefinedFile =
    .ok (.object [(Text.ofString "network", .object undefinedNetwork)]) := by
  apply Action.except_eq_ok_of_toOption
  decide +kernel

theorem misjudged_undefinedNetwork : Misjudged undefinedNetwork := by
  have cycle : readTime undefinedNetwork ("cycle_ms", .ofNat 1) = .ok Binary64.nan := by
    apply Action.except_eq_ok_of_toOption
    decide +kernel
  have sdoTimeout : readTime undefinedNetwork ("sdo_timeout_ms", .ofNat 3000) = .ok (.ofNat 3000) :=
    readTime_of_missing (by decide +kernel)
  have recvTimeout : readTime undefinedNetwork ("recv_timeout_us", .ofNat 2000) =
      .ok (.ofNat 2000) := readTime_of_missing (by decide +kernel)
  refine .undefined (.cons cycle (.cons sdoTimeout (.cons recvTimeout .nil))) (by decide +kernel) ?_
  exact ⟨Binary64.nan, List.mem_cons_self .., by decide⟩

/-- A missing file settles.  A list in the place of an object does not, nor does a time that is not
a number. -/
theorem load_settles_iff_undefinedFile :
    Settles [] none ∧ ¬ Settles [] (some (Utf8.encodeChars "[]".toList)) ∧
      ¬ Settles [] (some undefinedFile) := by
  have list : Json.ofBytes (Utf8.encodeChars "[]".toList) = .ok (.array []) := by
    apply Action.except_eq_ok_of_toOption
    decide +kernel
  refine ⟨(load_settles_iff [] none).mpr nofun, ?_, ?_⟩
  · rw [load_settles_iff, not_not]
    exact .noObject list nofun
  · rw [load_settles_iff, not_not]
    exact .network undefinedFile_read (.named (by decide +kernel)) misjudged_undefinedNetwork

end BusConfig

end Fieldbus
