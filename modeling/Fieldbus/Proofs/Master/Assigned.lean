import Fieldbus.Proofs.Master.Creation
import Fieldbus.Proofs.Master.Order
import Fieldbus.Proofs.Pdo.Described
import Fieldbus.Segment.MemoryEngine

/-!
# What a pass writes

A configuration pass writes the assignments of the slaves that it has found and nothing else.  The
lists come from the file with which the master was set up, whatever commands came in between: for
each slave its own section or else the default one.
-/

namespace Fieldbus

open Fieldbus.Action History

theorem Event.isDownload_eq_false {event : Event} {phase : Phase}
    (inside : event.phase? = some phase) (other : phase ≠ .assigning) :
    event.isDownload = false := by
  cases event with
  | download slave entry complete data timeout answer =>
      exact absurd (Option.some.inj inside).symm other
  | _ => rfl

namespace Master

variable {ε : Type} [Engine ε]

def Writeless (written : List Event) : Prop :=
  ∀ event ∈ written, event.isDownload = false

theorem Writeless.append {written more : List Event} (first : Writeless written)
    (second : Writeless more) : Writeless (written ++ more) :=
  List.forall_mem_append.mpr ⟨first, second⟩

theorem Writeless.filter {written : List Event} (writeless : Writeless written) :
    written.filter Event.isDownload = [] := by
  rw [List.filter_eq_nil_iff]
  intro event member
  rw [writeless event member]
  exact Bool.false_ne_true

/-- What a configuration pass does once the slaves are assigned. -/
def onceAssigned (count : Nat) : Action (Master ε) Unit := do
  layOut
  discoverAll count
  validateAll ((← get).maps.map Prod.fst)
  insistOnDiscovery

theorem configure_eq_onceAssigned :
    configure (ε := ε) = prepare >>= fun count => assign count >>= fun _ => onceAssigned count :=
  rfl

section Stages

variable {proper : Master (Logged ε) → Prop} {before : List Event} {phase : Phase} {α β : Type}

/-- A phase other than the assignment does not write. -/
theorem Writeless.of_keepsOrder {known : α → List Event → Prop} {ended : Except Fault α}
    {written : List Event} (other : phase ≠ .assigning)
    (told : KeepsOrder phase before known ended written) : Writeless written :=
  fun event member => Event.isDownload_eq_false (told.2.1 event member) other

omit [Engine ε] in
theorem Writeless.bind {known : α → List Event → Prop} {action : Action (Master (Logged ε)) α}
    {next : α → Action (Master (Logged ε)) β} (other : phase ≠ .assigning)
    (first : Tells proper events (KeepsOrder phase before known) action)
    (second : ∀ value written, known value (before ++ written) →
      Tells proper events (fun _ more => Writeless more) (next value)) :
    Tells proper events (fun _ written => Writeless written) (action >>= next) := by
  refine first.bind ?_ ?_
  · intro fault written told
    exact .of_keepsOrder other told
  · intro value written told
    refine (second value written (told.2.2 value rfl)).mono ?_
    intro _ more writeless
    exact .append (.of_keepsOrder other told) writeless

variable [AllowsSession (Preserve proper)]

theorem writeless_find :
    Tells proper (events (ε := ε)) (fun _ written => Writeless written) find := by
  rw [find_eq_countSlaves]
  have initialises : Tells proper (events (ε := ε))
      (KeepsOrder .initialising [] fun _ now => Reached .init now) (reach .init) :=
    tells_reach rfl fun _ => Or.inl rfl
  refine Writeless.bind (by decide) initialises ?_
  intro _ initialised initial
  refine Writeless.bind (by decide) (tells_countSlaves initial) ?_
  intro count counted enumerated
  refine Writeless.bind (by decide) (tells_reach rfl fun _ => Or.inr ⟨rfl, enumerated⟩) ?_
  intro _ readied reached
  exact Tells.pure (by simp [Writeless])

/-- What follows the assignment does not write. -/
theorem writeless_onceAssigned (reached : Reached .preOp before)
    (keeps : ∀ master dictionary maps discoveryFaults, proper master →
      proper { master with dictionary, maps, discoveryFaults }) (count : Nat) :
    Tells proper (events (ε := ε)) (fun _ written => Writeless written) (onceAssigned count) := by
  have split {α : Type} (next : Unit → Action (Master (Logged ε)) α) :
      (layOut >>= next) = mapAnew >>= fun _ => ask Engine.configureClocks >>= next := by
    simp only [layOut, mapAnew, bind_assoc, pure_bind]
  rw [onceAssigned, split]
  refine Writeless.bind (by decide)
    (tells_mapAnew (fun master known => keeps master _ _ _ known) reached) ?_
  intro _ mapping mapped
  refine Writeless.bind (by decide) (tells_configureClocks mapped) ?_
  intro _ synchronising mapped
  refine Writeless.bind (by decide) (tells_discoverAll keeps count mapped) ?_
  intro _ discovering mapped
  refine Tells.bind_get ?_
  intro master _
  refine Writeless.bind (by decide) (tells_validateAll _ mapped) ?_
  intro _ _ _
  have insists : Tells proper (events (ε := ε)) (KeepsOrder .insisting [] fun _ _ => True)
      insistOnDiscovery := tells_insistOnDiscovery
  exact insists.mono fun _ _ => .of_keepsOrder (by decide)

end Stages

theorem exists_writeless_prepare (master : Master (Logged ε)) :
    ∃ written, events (final (prepare master)) = master.events ++ written ∧ Writeless written := by
  obtain ⟨halted, joined, _, goesOn, isHalted, logged, joinedEq⟩ := exists_halted master
  obtain ⟨written, wrote, _, writeless⟩ := writeless_find halted isHalted
  refine ⟨joined ++ written, ?_, .append ?_ writeless⟩
  · rw [goesOn, wrote, logged, List.append_assoc]
  · rw [joinedEq]
    cases master.running with
    | true => exact fun event member => List.mem_singleton.mp member ▸ rfl
    | false => simp [Writeless]

section Writes

/-- The writes are those of a plan, unless one of them was refused. -/
def Plans (plan written : List Event) : Prop :=
  (∀ event ∈ written, event.accepted) → written.filter Event.isDownload = plan

instance (given : BusConfig × Option PdoConfig) :
    AllowsSession (Preserve fun master : Master ε => master.settings = given) where
  session _ _ := id

variable {seconds : Binary64}

/-- Once the slaves are found, the writes of the configuration are made. -/
theorem plans_assign {config : BusConfig} {given : Option PdoConfig}
    (writable : ∀ lists, given = some lists → lists.IsWritable config seconds) (count : Nat) :
    Tells (fun master => master.settings = (config, given)) (events (ε := ε))
      (fun _ => Plans ((given.map fun lists => lists.writes (.real seconds) count 0).getD []))
      (assign count >>= fun _ => onceAssigned count) := by
  refine Tells.bind (tells_assign seconds (fun _ known => congrArg Prod.fst known)
    (fun _ known => congrArg Prod.snd known) count) ?_ ?_
  · rintro fault written ⟨_, told⟩ accepted
    cases (told writable accepted).1
  · rintro _ written ⟨writes, told⟩
    have reached : Reached .preOp
        [.checkState AlState.preOp.code stateTimeout (.ok AlState.preOp.code)] :=
      List.mem_singleton.mpr rfl
    refine (writeless_onceAssigned reached (fun _ _ _ _ => id) count).mono ?_
    intro _ more writeless accepted
    obtain ⟨_, rfl⟩ := told writable fun event member =>
      accepted event (List.mem_append_left _ member)
    rw [List.filter_append, writeless.filter, List.append_nil, List.filter_eq_self]
    exact writes

/-- A pass writes what its lists say of the slaves that it has found. -/
theorem plans_configure (master : Master (Logged ε))
    (writable : ∀ lists, master.pdoConfig = some lists → lists.IsWritable master.config seconds) :
    ∃ written, events (final (configure master)) = master.events ++ written ∧
      Plans (match outcome (prepare master) with
        | .ok count =>
            (master.pdoConfig.map fun lists => lists.writes (.real seconds) count 0).getD []
        | .error _ => []) written := by
  obtain ⟨first, logged, writeless⟩ := exists_writeless_prepare master
  have moved : Moves (Keep settings) (prepare (ε := Logged ε)) := moves_prepare
  have settled : (final (prepare master)).settings = master.settings := moved master
  cases prepared : prepare master with
  | error fault between =>
      rw [prepared] at logged
      refine ⟨first, ?_, fun _ => writeless.filter⟩
      rw [configure_eq_onceAssigned, bind_of_error prepared]
      exact logged
  | ok count between =>
      rw [prepared] at logged settled
      obtain ⟨written, wrote, _, plans⟩ := plans_assign writable count between settled
      refine ⟨first ++ written, ?_, ?_⟩
      · rw [configure_eq_onceAssigned, bind_of_ok prepared, wrote, ← List.append_assoc]
        exact congrArg (· ++ written) logged
      · intro accepted
        rw [List.filter_append, writeless.filter, List.nil_append]
        exact plans fun event member => accepted event (List.mem_append_right _ member)

end Writes

/-- Whatever a master has been used for, a configuration pass in which no write is refused writes
to each slave that it finds, in ascending order, the lists that the file describes for it, and
nothing to a slave without lists. -/
theorem downloads_of_describes {engine : Logged ε} {adapter cycleMs : Payload}
    {given : Option BusConfig} {path : Text} {content : Bytes} {document : Json}
    {default? : Option PdoLists} {slaves : Table Nat PdoLists} {master : Master (Logged ε)}
    (isDocument : Json.ofBytes content = .ok document)
    (describes : PdoConfig.Describes document default? slaves)
    (created : create engine adapter cycleMs given (some (path, some content)) = .ok master)
    (switched : master.config.configurePdo.isSet = true)
    (timed : ∀ config, given = some config → ∃ seconds, config.sdoTimeout = .ok seconds)
    (commands : List Command) :
    ∃ seconds, master.config.sdoTimeout = .ok seconds ∧
      let before := Command.performAll commands master
      ∃ written, events (final (configure before)) = before.events ++ written ∧
        ((∀ event ∈ written, event.accepted) →
          written.filter Event.isDownload =
            match outcome (prepare before) with
            | .ok count => (List.range count).flatMap fun (slave : Nat) =>
                Assignment.writes slave (.real seconds) ((slaves.get? slave).or default?)
            | .error _ => []) := by
  obtain ⟨config, read, holds⟩ := pdoConfig_of_create isDocument created switched
  obtain ⟨seconds, hasTimeout⟩ := exists_sdoTimeout_of_create created timed
  refine ⟨seconds, hasTimeout, ?_⟩
  have settled := settings_performAll commands master
  have sameConfig : (Command.performAll commands master).config = master.config :=
    congrArg Prod.fst settled
  have sameLists : (Command.performAll commands master).pdoConfig = some config :=
    (congrArg Prod.snd settled).trans holds
  have writable : ∀ lists, (Command.performAll commands master).pdoConfig = some lists →
      lists.IsWritable (Command.performAll commands master).config seconds := by
    intro lists given
    rw [sameLists] at given
    cases given
    refine ⟨sameConfig ▸ hasTimeout, ?_⟩
    intro slave lists found
    rw [describes.lookup?_eq read] at found
    exact (describes.isAssignable found).fits
  obtain ⟨written, wrote, plans⟩ := plans_configure (Command.performAll commands master) writable
  refine ⟨written, wrote, ?_⟩
  intro accepted
  rw [plans accepted, sameLists]
  cases outcome (prepare (Command.performAll commands master)) with
  | error fault => rfl
  | ok count =>
      simp only [Option.map_some, Option.getD_some, PdoConfig.writes, describes.lookup?_eq read,
        List.range_eq_range']

def assigningFile : Bytes :=
  Utf8.encodeChars ("\x7b\"network\": \x7b\"configure_pdo\": true\x7d, " ++
    "\"default\": \x7b\"rx_pdo\": [\"0X1a0F\", 5632]\x7d, " ++
    "\"slaves\": \x7b\"1\": \x7b\"tx_pdo\": [\"0x1A00\"]\x7d\x7d\x7d").toList

def assigningDocument : Json := .object [
  (Text.ofString "network", .object [(Text.ofString "configure_pdo", .bool true)]),
  (Text.ofString "default", .object [
    (Text.ofString "rx_pdo", .array [.text (Text.ofString "0X1a0F"), .int 5632])]),
  (Text.ofString "slaves", .object [
    (Text.ofString "1", .object [
      (Text.ofString "tx_pdo", .array [.text (Text.ofString "0x1A00")])])])]

theorem assigningFile_read : Json.ofBytes assigningFile = .ok assigningDocument := by
  apply except_eq_ok_of_toOption
  decide +kernel

theorem assigningDocument_describes :
    PdoConfig.Describes assigningDocument (some ⟨[0x1a0f, 5632], []⟩) [(1, ⟨[], [0x1a00]⟩)] := by
  have first : PdoConfig.WritesIndex (.text (Text.ofString "0X1a0F")) 0x1a0f :=
    .numeral (by decide) (Or.inr rfl) ⟨0, by decide⟩
  have second : PdoConfig.WritesIndex (.int 5632) 5632 :=
    @PdoConfig.WritesIndex.integer 5632 (by decide)
  have only : PdoConfig.WritesIndex (.text (Text.ofString "0x1A00")) 0x1a00 :=
    .numeral (by decide) (Or.inl rfl) ⟨0, by decide⟩
  have byDefault := PdoConfig.WritesList.array (by decide) (.cons first (.cons second .nil))
  have own := PdoConfig.WritesList.array (by decide) (.cons only .nil)
  refine .object (.some (.object byDefault .missing)) (.object (by decide) (.cons ?_ .nil))
  exact .field ⟨0, by decide⟩ (.object .missing own)

def plainPair : Logged MemoryEngine :=
  ⟨MemoryEngine.ofSegment
    { Segment.bare with slaves := [SimulatedSlave.plain, SimulatedSlave.plain] }, []⟩

def assigningMaster : Master (Logged MemoryEngine) :=
  (create plainPair .none .none none (some ([], some assigningFile))).toOption.getD
    (idle BusConfig.defaults none plainPair)

theorem create_assigningMaster :
    create plainPair .none .none none (some ([], some assigningFile)) = .ok assigningMaster := by
  have isCreated : (create plainPair .none .none none (some ([], some assigningFile))).isOk := by
    decide +kernel
  unfold assigningMaster
  cases created : create plainPair .none .none none (some ([], some assigningFile)) with
  | ok master => rfl
  | error fault =>
      rw [created] at isCreated
      cases isCreated

/-- After the bus was opened, the next pass assigns the first slave by default and the second one
by its own section. -/
theorem downloads_of_describes_plainPair :
    ∃ seconds written,
      events (final (configure (Command.performAll [.openBus true] assigningMaster))) =
        (Command.performAll [.openBus true] assigningMaster).events ++ written ∧
      written.filter Event.isDownload =
        (Assignment.steps ⟨[0x1a0f, 5632], []⟩).map (Assignment.Step.made 0 (.real seconds)) ++
          (Assignment.steps ⟨[], [0x1a00]⟩).map (Assignment.Step.made 1 (.real seconds)) := by
  obtain ⟨seconds, _, written, wrote, writes⟩ := downloads_of_describes assigningFile_read
    assigningDocument_describes create_assigningMaster (by decide +kernel) (by simp)
    [.openBus true]
  have counted : outcome (prepare (Command.performAll [.openBus true] assigningMaster)) =
      .ok 2 := by
    apply except_eq_ok_of_toOption
    decide +kernel
  have all : (events (final (configure (Command.performAll [.openBus true] assigningMaster)))).all
      Event.accepted = true := by
    decide +kernel
  have accepted : ∀ event ∈ written, event.accepted = true := by
    intro event member
    apply List.all_eq_true.mp all
    rw [wrote]
    exact List.mem_append_right _ member
  refine ⟨seconds, written, wrote, ?_⟩
  rw [writes accepted, counted]
  rfl

end Master

end Fieldbus
