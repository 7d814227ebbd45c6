import Fieldbus.Proofs.Master.Queues
import Fieldbus.Proofs.Master.Values
import Mathlib.Data.List.Nodup

/-!
# Handles after a cycle

A cycle attends to one handle after the other: it applies the queue of the handle, reads the values
of its slave and lets its observer count them.  The handles after it change the image as well, but
not the part that was read, as long as they belong to other slaves.  The main statement says that
after a cycle every registered handle shows what is in the image then.
-/

namespace Fieldbus

namespace Master

open Fieldbus.Action Engine Engine.Delivers Engine.Ranged

variable {ε : Type} [Engine ε] {slave other : Int} {table : Table EntryIndex Value}
  {master before after : Master ε}

/-- What a handle of a slave shows once it was refreshed: the values of the slave by entry, or
nothing if reading them does not find the slave. -/
inductive Shows (slave : Int) (master : Master ε) : Table EntryIndex Value → Prop
  | read {found : List (EntryIndex × Value)} : outcome (values slave master) = .ok found →
      Shows slave master (Table.ofList found)
  | missing : outcome (values slave master) = .error (.slaveNotFound slave) →
      Shows slave master []

section Readings

variable [Ranged ε]

theorem eq_slaveNotFound_of_ofSlave {ranges : List ImageRange} {fault : Fault}
    (failed : ImageRange.ofSlave ranges slave = .error fault) : fault = .slaveNotFound slave := by
  rw [ImageRange.ofSlave] at failed
  split at failed
  · cases failed
  · cases failed
    rfl

theorem eq_slaveNotFound_of_readings {fault : Fault}
    (failed : readings slave master = .error fault) : fault = .slaveNotFound slave := by
  rw [readings] at failed
  cases known : master.maps.get? slave with
  | none =>
      rw [known] at failed
      cases failed
      rfl
  | some map =>
      rw [known] at failed
      rcases except_bind_eq_error_iff.mp failed with unasked | ⟨inputs, _, failed⟩
      · exact eq_slaveNotFound_of_ofSlave unasked
      rcases except_bind_eq_error_iff.mp failed with unasked | ⟨outputs, _, impossible⟩
      · exact eq_slaveNotFound_of_ofSlave unasked
      · cases impossible

theorem readings_of_wiring (kept : Keep wiring before after) (slave : Int) :
    readings slave after = readings slave before := by
  have mapsEq : after.maps = before.maps := congrArg Prod.fst kept
  have engineEq : after.engine = before.engine := congrArg Prod.snd kept
  rw [readings, readings, mapsEq, engineEq]

theorem Shows.of_readings (same : readings slave after = readings slave before)
    (shows : Shows slave before table) : Shows slave after table := by
  cases shows with
  | read found =>
      rw [outcome_values, ← same, ← outcome_values] at found
      exact .read found
  | missing failed =>
      rw [outcome_values, ← same, ← outcome_values] at failed
      exact .missing failed

/-- A handle of a slave without a map shows nothing. -/
theorem Shows.eq_nil_of_unmapped (shows : Shows slave master table)
    (unmapped : master.maps.get? slave = none) : table = [] := by
  cases shows with
  | read found =>
      rw [outcome_values, readings, unmapped] at found
      cases found
  | missing _ => rfl

/-- The values that a handle takes in are those that it is to show. -/
theorem shows_of_currentValues (read : currentValues slave before = .ok table after) :
    Shows slave before table := by
  rcases catching_eq_ok_iff.mp read with succeeded | ⟨fault, between, failed, _, handled⟩
  · obtain ⟨found, between, valued, same⟩ := bind_eq_ok_iff.mp succeeded
    cases same
    apply Shows.read
    rw [valued]
    rfl
  · cases handled
    rcases bind_eq_error_iff.mp failed with unread | ⟨_, _, _, impossible⟩
    · apply Shows.missing
      have unreadable : readings slave before = .error fault := by
        rw [← outcome_values, unread]
        rfl
      rw [outcome_values, unreadable, eq_slaveNotFound_of_readings unreadable]
    · cases impossible

end Readings

/-- What a cycle makes of a registered handle: its queue is empty, it shows the values of its
slave, and its observer, if it has one, has counted them once more. -/
structure Refreshed (was now : Handle) (after : Master ε) : Prop where
  slave : now.slave = was.slave
  registered : now.registered = was.registered
  drained : now.pending = []
  shows : Shows now.slave after now.values
  unmapped : after.maps.get? now.slave = none → now.values = []
  observed : now.observed = was.observed.map (· ++ [now.values.length])

section Cycle

variable [LaysOut ε] {was : Handle} {place : Nat} {places : List Nat}
  {writes : List (EntryIndex × Value)}

theorem Refreshed.of_readings {now : Handle} {between : Master ε}
    (refreshed : Refreshed was now between)
    (same : readings now.slave after = readings now.slave between) : Refreshed was now after where
  slave := refreshed.slave
  registered := refreshed.registered
  drained := refreshed.drained
  shows := refreshed.shows.of_readings same
  unmapped := (refreshed.shows.of_readings same).eq_nil_of_unmapped
  observed := refreshed.observed

theorem readings_applyWrites (mapped : Mapped before) (different : other ≠ slave)
    (applied : applyWrites slave writes before = .ok () after) :
    readings other after = readings other before := by
  induction writes generalizing before with
  | nil =>
      cases applied
      rfl
  | cons write rest ih =>
      obtain ⟨_, between, set, more⟩ := bind_eq_ok_iff.mp applied
      have mappedBetween := mapped.of_ok (moves_setValue _ _ _) set
      obtain ⟨map, range, changed, sets, rfl⟩ := exists_of_setValue_ok set
      exact (ih mappedBetween more).trans (sets.readings_of_ne mapped different)

def RefreshedAt (place : Nat) (before after : Master ε) : Prop :=
  ∃ was now, before.handles[place]? = some was ∧ after.handles[place]? = some now ∧
    Refreshed was now after

/-- What updates of handles at some places leave behind. -/
structure Refreshes (places : List Nat) (before after : Master ε) : Prop where
  refreshed : ∀ place ∈ places, RefreshedAt place before after
  others : ∀ other ∉ places.map (slaveOf before), readings other after = readings other before

def showing (table : Table EntryIndex Value) (handle : Handle) : Handle :=
  { handle with values := table, observed := handle.observed.map (· ++ [table.length]) }

omit [LaysOut ε] in
theorem exists_of_refresh_ok (refreshing : refresh place before = .ok () after) :
    ∃ found table read, before.handles[place]? = some found ∧
      currentValues found.slave before = .ok table read ∧
      after = { read with handles := read.handles.modify place (showing table) } := by
  obtain ⟨found, _, looked, rest⟩ := bind_eq_ok_iff.mp refreshing
  obtain ⟨holds, rfl⟩ := found_of_handle looked
  obtain ⟨table, read, reading, changing⟩ := bind_eq_ok_iff.mp rest
  cases changing
  exact ⟨found, table, read, holds, reading, rfl⟩

/-- An update refreshes its handle and leaves the values of the other slaves as they are. -/
theorem refreshes_updateHandle (mapped : Mapped before)
    (updated : updateHandle place before = .ok () after) :
    RefreshedAt place before after ∧
      ∀ other, other ≠ slaveOf before place → readings other after = readings other before := by
  obtain ⟨was, applied, holds, writing, refreshing⟩ := exists_of_updateHandle_ok updated
  have handlesKept : Keep Master.handles _ applied := (moves_applyWrites _ _).of_ok writing
  have appliedHolds : applied.handles[place]? = some (emptied was) := by
    rw [show applied.handles = before.handles.modify place emptied from handlesKept,
      List.getElem?_modify, holds]
    simp
  obtain ⟨found, table, read, same, reading, rfl⟩ := exists_of_refresh_ok refreshing
  cases appliedHolds.symm.trans same
  have readKept : Keep Master.handles applied read := (moves_currentValues _).of_ok reading
  have wiringKept : Keep wiring applied _ := (keeps_refresh place).of_ok refreshing
  refine ⟨⟨was, showing table (emptied was), holds, ?_, ?_⟩, ?_⟩
  · show (read.handles.modify place _)[place]? = _
    rw [show read.handles = applied.handles from readKept, List.getElem?_modify, appliedHolds]
    simp
  · have shown : Shows was.slave _ table :=
      (shows_of_currentValues reading).of_readings (readings_of_wiring wiringKept _)
    exact ⟨rfl, rfl, rfl, shown, shown.eq_nil_of_unmapped, rfl⟩
  · intro other different
    have apart : other ≠ was.slave := by
      rwa [slaveOf, holds] at different
    have taken := wiring_taken place before
    calc readings other _
        = readings other applied := readings_of_wiring wiringKept _
      _ = readings other _ := readings_applyWrites (mapped_of_wiring taken mapped) apart writing
      _ = readings other before := readings_of_wiring taken _

/-- Updates of the handles of distinct slaves refresh all of them: what the later ones write is
not what the earlier ones show. -/
theorem refreshes_forPlaces (distinct : (places.map (slaveOf before)).Nodup)
    (mapped : Mapped before) (updated : forPlaces updateHandle places before = .ok () after) :
    Refreshes places before after := by
  induction places generalizing before with
  | nil =>
      cases updated
      refine ⟨?_, fun _ _ => rfl⟩
      intro place member
      cases member
  | cons place rest ih =>
      rw [List.map_cons] at distinct
      obtain ⟨fresh, restDistinct⟩ := List.nodup_cons.mp distinct
      have outside : place ∉ rest := fun member => fresh (List.mem_map_of_mem member)
      obtain ⟨_, between, first, more⟩ := bind_eq_ok_iff.mp updated
      have mappedBetween := mapped.of_ok (moves_updateHandle place) first
      obtain ⟨⟨was, now, held, holds, refreshed⟩, firstOthers⟩ :=
        refreshes_updateHandle mapped first
      have kept : ∀ later ∈ rest, between.handles[later]? = before.handles[later]? := by
        intro later member
        apply (updateHandle_ok mapped first).2.others
        rintro rfl
        exact outside member
      have slavesEq : rest.map (slaveOf between) = rest.map (slaveOf before) := by
        apply List.map_congr_left
        intro later member
        rw [slaveOf, slaveOf, kept later member]
      rw [← slavesEq] at restDistinct fresh
      have refreshes := ih restDistinct mappedBetween more
      refine ⟨?_, ?_⟩
      · intro other member
        rcases List.mem_cons.mp member with rfl | later
        · have own : slaveOf before other = now.slave := by
            rw [slaveOf, held, refreshed.slave]
            rfl
          rw [own] at fresh
          have drains := drains_forPlaces (List.Nodup.of_map _ restDistinct) mappedBetween more
          exact ⟨was, now, held, (drains.others other outside).trans holds,
            refreshed.of_readings (refreshes.others _ fresh)⟩
        · obtain ⟨was, now, held, holds, refreshed⟩ := refreshes.refreshed other later
          exact ⟨was, now, (kept other later).symm.trans held, holds, refreshed⟩
      · intro other apart
        rw [List.map_cons, ← slavesEq] at apart
        obtain ⟨different, apartRest⟩ := not_or.mp (List.mem_cons.not.mp apart)
        exact (refreshes.others other apartRest).trans (firstOthers other different)

omit [LaysOut ε] [Engine ε] in
theorem registeredSlaves_eq (master : Master ε) :
    registeredSlaves master = (registeredPlaces master).map (slaveOf master) := by
  rw [registeredSlaves, slavesAt, ← List.filterMap_eq_map]
  apply List.filterMap_congr
  intro place registered
  have inside := lt_of_mem_registeredPlaces registered
  simp [slaveOf_eq, List.getElem?_eq_getElem inside]

/-- After a cycle that succeeds every registered handle shows what is in the image then, its queue
is empty and its observer was called once, if the handles are of distinct slaves. -/
theorem refreshed_of_cycle {wkc : Int} (reachable : Reachable master)
    (distinct : (registeredSlaves master).Nodup) (cycled : cycle master = .ok wkc after) :
    ∀ place ∈ registeredPlaces master, RefreshedAt place master after := by
  obtain ⟨exchanged, exchanging, handlesEq, updating⟩ := exists_of_cycle_ok cycled
  have slavesEq : slaveOf exchanged = slaveOf master := by
    funext place
    rw [slaveOf, slaveOf, handlesEq]
  rw [registeredSlaves_eq, ← slavesEq] at distinct
  have mapped := reachable.mapped.of_ok moves_exchange exchanging
  have refreshes := refreshes_forPlaces distinct mapped updating
  intro place registered
  obtain ⟨was, now, held, holds, refreshed⟩ := refreshes.refreshed place registered
  rw [handlesEq] at held
  exact ⟨was, now, held, holds, refreshed⟩

end Cycle

/-- A master of two slaves with texts and of a handle of a slave that is not there, with a write
queued for each of the slaves that are. -/
def panelMaster : Master MemoryEngine :=
  Command.performAll
    [.register 0 true, .register 1 false, .register 7 true, .openBus false,
      .queue 0 ⟨0x7000, 2⟩ ⟨.string, .text "hi"⟩, .queue 1 ⟨0x7000, 1⟩ ⟨.bool, .bool true⟩]
    (idle BusConfig.defaults none
      (MemoryEngine.ofSegment { Segment.bare with slaves := [gaugeSlave, gaugeSlave] }))

/-- The handles of the slaves that are there show both of their values, with the writes taken in;
the third handle shows nothing.  The observers have counted that. -/
theorem refreshed_of_cycle_panelMaster :
    ∃ wkc after, cycle panelMaster = .ok wkc after ∧
      (∀ place ∈ registeredPlaces panelMaster, RefreshedAt place panelMaster after) ∧
      registeredPlaces panelMaster = [0, 1, 2] ∧
      Engine.image after.engine = [0, 0x68, 0x69, 1, 0, 0] ∧
      after.handles.map (·.values.length) = [2, 2, 0] ∧
      after.handles.map Handle.observed = [some [2], none, some [0]] := by
  have reachable : Reachable panelMaster := (Reachable.idle _ _ _).performAll _
  have distinct : (registeredSlaves panelMaster).Nodup := by decide +kernel
  have cycles : result? (cycle panelMaster) = some 3 := by decide +kernel
  have places : registeredPlaces panelMaster = [0, 1, 2] := by decide +kernel
  have seen : Engine.image (final (cycle panelMaster)).engine = [0, 0x68, 0x69, 1, 0, 0] ∧
      (final (cycle panelMaster)).handles.map (·.values.length) = [2, 2, 0] ∧
      (final (cycle panelMaster)).handles.map Handle.observed = [some [2], none, some [0]] := by
    decide +kernel
  obtain ⟨after, cycled⟩ := exists_ok_of_result? cycles
  rw [cycled] at seen
  exact ⟨3, after, cycled, refreshed_of_cycle reachable distinct cycled, places, seen⟩

end Master

end Fieldbus
