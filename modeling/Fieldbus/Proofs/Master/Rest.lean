import Fieldbus.Proofs.Engine.Delivery
import Fieldbus.Proofs.Master.Closing
import Fieldbus.Proofs.Master.Reachable

/-!
# Slaves at rest

A slave is at rest if the outputs that it got last are all zero.  Closing clears the outputs of
every registered handle in the image, but the image is sent only if the process-data task was
running.  The main statement says exactly when a slave is at rest after a master was closed.
-/

namespace Fieldbus

namespace Master

open Fieldbus.Action Engine.Delivers

variable {ε : Type} [Engine ε] [Engine.Delivers ε]

/-- What an engine delivers to whom stays the same, and ranges that are clear stay clear. -/
structure Calms (before after : ε) : Prop where
  received : received after = received before
  served : served after = served before
  clear : ∀ range : ImageRange, (range.read (Engine.image before)).Clear →
    (range.read (Engine.image after)).Clear

theorem Calms.refl (engine : ε) : Calms engine engine :=
  ⟨rfl, rfl, fun _ clear => clear⟩

theorem Calms.trans {before between after : ε} (first : Calms before between)
    (second : Calms between after) : Calms before after where
  received := second.received.trans first.received
  served := second.served.trans first.served
  clear range clear := second.clear range (first.clear range clear)

theorem image_cleared (range : ImageRange) (engine : ε) :
    Engine.image (cleared range engine) =
      range.write (Engine.image engine) (Bytes.zeros range.length) :=
  image_setImage _ _

theorem calms_cleared (range : ImageRange) (engine : ε) : Calms engine (cleared range engine) where
  received := received_setImage _ _
  served := served_setImage _ _
  clear other clear := by
    rw [image_cleared]
    exact ImageRange.clear_read_of_write_zeros clear range

theorem calms_taskJoined (engine : ε) : Calms engine (Engine.taskJoined engine) where
  received := received_taskJoined _
  served := served_taskJoined _
  clear range clear := by rwa [image_taskJoined]

theorem Cleared.calms {slave : Int} {before after : ε} (clears : Cleared slave before after) :
    Calms before after := by
  rcases clears with ⟨range, _, rfl⟩ | ⟨_, rfl⟩
  · exact calms_cleared range before
  · exact Calms.refl _

theorem Cleared.clear {position : Nat} {before after : ε} {range : ImageRange}
    (clears : Cleared position before after) (serves : served before position = some range) :
    (range.read (Engine.image after)).Clear := by
  have known := outputRange_of_served serves
  rcases clears with ⟨other, asked, rfl⟩ | ⟨missing, _⟩
  · cases asked.symm.trans known
    rw [image_cleared]
    exact ImageRange.clear_read_write_zeros range _
  · cases missing.symm.trans known

theorem ClearedAll.calms {slaves : List Int} {before after : ε}
    (clears : ClearedAll slaves before after) : Calms before after := by
  induction slaves generalizing before with
  | nil =>
      cases clears
      exact Calms.refl _
  | cons slave rest ih =>
      obtain ⟨between, first, others⟩ := clears
      exact first.calms.trans (ih others)

/-- After handles were stopped, the outputs of each of their slaves are clear in the image: what one
stop cleared, the later ones keep clear, since they write zeros only. -/
theorem ClearedAll.clear {slaves : List Int} {position : Nat} {before after : ε}
    {range : ImageRange} (clears : ClearedAll slaves before after)
    (member : (position : Int) ∈ slaves) (serves : served before position = some range) :
    (range.read (Engine.image after)).Clear := by
  induction slaves generalizing before with
  | nil => cases member
  | cons slave rest ih =>
      obtain ⟨between, first, others⟩ := clears
      rcases List.mem_cons.mp member with rfl | later
      · exact others.calms.clear range (first.clear serves)
      · have stillServes : served between position = some range := by
          rw [first.calms.served, serves]
        exact ih others later stillServes

/-- The slave at a position is at rest: what it got last, if anything, is all zero. -/
def AtRest (engine : ε) (position : Nat) : Prop :=
  (received engine position).Clear

instance (engine : ε) (position : Nat) : Decidable (AtRest engine position) :=
  inferInstanceAs (Decidable (received engine position).Clear)

/-- A handle of the slave at a position takes part in cycles. -/
def IsHandled (master : Master ε) (position : Nat) : Prop :=
  ∃ handle ∈ master.handles, handle.slave = position ∧ handle.registered = true

variable {master quieted : Master ε} {position : Nat}

omit [Engine ε] [Engine.Delivers ε] in
theorem isHandled_iff_mem_roster :
    IsHandled master position ↔ ((position : Int), true) ∈ master.roster := by
  simp [IsHandled, roster]

omit [Engine ε] [Engine.Delivers ε] in
theorem IsHandled.exists_place (handled : IsHandled master position) :
    ∃ place ∈ registeredPlaces master, master.roster[place]? = some ((position : Int), true) := by
  rw [isHandled_iff_mem_roster] at handled
  obtain ⟨place, listed⟩ := List.mem_iff_getElem?.mp handled
  have inside := (List.getElem?_eq_some_iff.mp listed).1
  refine ⟨place, ?_, listed⟩
  rw [registeredPlaces_eq, List.mem_filter, List.mem_range, listed]
  exact ⟨inside, rfl⟩

omit [Engine ε] [Engine.Delivers ε] in
theorem IsHandled.mem_registeredSlaves (handled : IsHandled master position) :
    (position : Int) ∈ registeredSlaves master := by
  obtain ⟨place, registered, listed⟩ := handled.exists_place
  apply List.mem_filterMap.mpr
  exact ⟨place, registered, by rw [listed]; rfl⟩

omit [Engine.Delivers ε] in
theorem exists_of_exchange_ok {wkc : Int} {after : Master ε}
    (exchanged : exchange master = .ok wkc after) :
    ∃ timeout sent expected, Engine.exchange timeout master.engine = .ok wkc sent ∧
      Engine.expectedWkc sent = .ok expected after.engine := by
  obtain ⟨_, _, got, rest⟩ := bind_eq_ok_iff.mp exchanged
  cases got
  obtain ⟨timeout, timed, timing, rest⟩ := bind_eq_ok_iff.mp rest
  have timeKept : Keep id master timed := (Moves.ofAccident _).of_ok timing
  cases timeKept
  obtain ⟨answer, sent, sending, rest⟩ := bind_eq_ok_iff.mp rest
  obtain ⟨engine, answered, rfl⟩ := exists_of_ask_ok sending
  obtain ⟨_, noted, noting, rest⟩ := bind_eq_ok_iff.mp rest
  cases noting
  obtain ⟨expected, counted, expecting, rest⟩ := bind_eq_ok_iff.mp rest
  obtain ⟨last, expects, rfl⟩ := exists_of_ask_ok expecting
  refine ⟨.real timeout, engine, expected, ?_⟩
  by_cases complete : answer = expected
  · simp only [if_pos complete] at rest
    cases rest
    exact ⟨answered, expects⟩
  · simp only [if_neg complete] at rest
    cases rest
    exact ⟨answered, expects⟩

theorem received_exchange {wkc : Int} {after : Master ε}
    (exchanged : exchange master = .ok wkc after) :
    received after.engine position =
      ((served master.engine position).map (·.read (Engine.image master.engine))).getD
        (received master.engine position) := by
  obtain ⟨timeout, sent, expected, exchanged, expects⟩ := exists_of_exchange_ok exchanged
  have expectKept := received_expectedWkc sent
  rw [expects] at expectKept
  rw [← Engine.Delivers.received_exchange exchanged position]
  exact congrFun expectKept position

theorem Quieted.calms (isQuiet : Quieted master quieted) :
    Calms master.engine quieted.engine := by
  obtain ⟨between, clears, engineEq⟩ := isQuiet.engine
  rw [engineEq]
  split
  · exact clears.calms.trans (calms_taskJoined between)
  · exact clears.calms

omit [Engine.Delivers ε] in
theorem Quieted.isHandled (isQuiet : Quieted master quieted) (handled : IsHandled master position) :
    IsHandled quieted position := by
  rw [isHandled_iff_mem_roster] at handled ⊢
  rwa [isQuiet.roster]

/-- In a quiet master the outputs of each slave with a registered handle are clear. -/
theorem Quieted.clear {range : ImageRange} (isQuiet : Quieted master quieted)
    (handled : IsHandled master position) (serves : served master.engine position = some range) :
    (range.read (Engine.image quieted.engine)).Clear := by
  obtain ⟨between, clears, engineEq⟩ := isQuiet.engine
  have clear := clears.clear handled.mem_registeredSlaves serves
  rw [engineEq]
  split
  · exact (calms_taskJoined between).clear range clear
  · exact clear

instance : AllowsNotices (Keep (Master.engine (ε := ε))) where
  notices _ _ := rfl

/-- Unbinding the engine and reporting it delivers nothing. -/
theorem received_leave (opened : quieted.opened = true) (wasRunning : Bool) :
    received (final (leave wasRunning quieted)).engine =
      received (final (farewell wasRunning quieted quieted)).engine := by
  let farewelled := final (farewell wasRunning quieted quieted)
  have reported : Keep Master.engine (final (disconnect farewelled))
      (final (leave wasRunning quieted)) := leave_of_opened opened wasRunning
  have marked : Keep Master.engine (final (ask Engine.disconnect farewelled))
      (final (disconnect farewelled)) := by
    apply final_disconnect
    intro _
    rfl
  have engineEq : (final (leave wasRunning quieted)).engine =
      final (Engine.disconnect farewelled.engine) :=
    (reported.trans marked).trans (engine_ask _ _)
  rw [engineEq, received_disconnect]

theorem received_farewell_of_running {wkc : Int} {after : Master ε}
    (handled : IsHandled quieted position) (exchanged : exchange quieted = .ok wkc after) :
    received (final (farewell true quieted quieted)).engine position =
      ((served quieted.engine position).map (·.read (Engine.image quieted.engine))).getD
        (received quieted.engine position) := by
  obtain ⟨place, registered, _⟩ := handled.exists_place
  have some : (registeredPlaces quieted).isEmpty = false := by
    cases places : registeredPlaces quieted with
    | nil => simp [places] at registered
    | cons first rest => rfl
  have sends : finalExchange quieted = .ok () after := by
    apply catching_of_ok
    rw [bind_of_ok exchanged]
    rfl
  rw [farewell, some]
  show received (final (finalExchange quieted)).engine position = _
  rw [sends, ← received_exchange exchanged]
  rfl

/-- After a master with an open bus was closed and the last exchange, if there was one,
succeeded, the slave of a registered handle is at rest exactly if the task was running and an
exchange serves the slave, or it was at rest before. -/
theorem atRest_close_iff [Engine.KnowsRanges ε] (opened : master.opened = true)
    (handled : IsHandled master position)
    (exchanges : master.running = true →
      ∃ wkc after, exchange (final (quiet master)) = .ok wkc after) :
    AtRest (final (close master)).engine position ↔
      master.running = true ∧ (served master.engine position).isSome = true ∨
        AtRest master.engine position := by
  obtain ⟨quieted, quieting, isQuiet⟩ := exists_quiet master
  rw [quieting] at exchanges
  have receivedEq := isQuiet.calms.received
  have servedEq := isQuiet.calms.served
  rw [close_of_quieted quieting, AtRest,
    received_leave (isQuiet.opened.trans opened) master.running]
  cases runs : master.running with
  | false =>
      have silent : (final (farewell false quieted quieted)).engine = quieted.engine := rfl
      rw [silent, receivedEq]
      simp [AtRest]
  | true =>
      obtain ⟨wkc, after, exchanged⟩ := exchanges runs
      rw [received_farewell_of_running (isQuiet.isHandled handled) exchanged, servedEq, receivedEq]
      cases serves : served master.engine position with
      | none => simp [AtRest]
      | some range =>
          have clear := isQuiet.clear handled serves
          simp [clear]

/-- A slave with one byte of outputs, which holds a number. -/
def driveSlave : SimulatedSlave :=
  { SimulatedSlave.plain with
    outputBytes := 1
    mailbox := [
      (⟨0x1c00, 0⟩, [.data [3]]), (⟨0x1c00, 3⟩, [.data [3]]),
      (⟨0x1c12, 0⟩, [.data [1]]), (⟨0x1c12, 1⟩, [.data [0x00, 0x16]]),
      (⟨0x1600, 0⟩, [.data [1]]), (⟨0x1600, 1⟩, [.data [8, 1, 0x00, 0x70]])] }

/-- A master that runs its task and has sent a command to that slave. -/
def drivingMaster : Master MemoryEngine :=
  Command.performAll
    [.register 0 false, .openBus true, .setValue 0 ⟨0x7000, 1⟩ ⟨.u8, .int 7⟩, .cycle]
    (idle BusConfig.defaults none
      (MemoryEngine.ofSegment { Segment.bare with slaves := [driveSlave] }))

def coastingMaster : Master MemoryEngine :=
  final (stop drivingMaster)

/-- Closing brings the slave to rest while the task runs, but leaves it with its last command
once the task was stopped. -/
theorem atRest_close_iff_drivingMaster :
    AtRest (final (close drivingMaster)).engine 0 ∧
      received coastingMaster.engine 0 = [7] ∧
      ¬ AtRest (final (close coastingMaster)).engine 0 := by
  have driven : IsHandled drivingMaster 0 := by
    rw [isHandled_iff_mem_roster]
    decide +kernel
  have coasted : IsHandled coastingMaster 0 := by
    rw [isHandled_iff_mem_roster]
    decide +kernel
  have sends : result? (exchange (final (quiet drivingMaster))) = some 3 := by decide +kernel
  have ended : coastingMaster.running = false := by decide +kernel
  refine ⟨?_, by decide +kernel, ?_⟩
  · rw [atRest_close_iff (by decide +kernel) driven fun _ => ⟨3, exists_ok_of_result? sends⟩]
    exact Or.inl (by decide +kernel)
  · rw [atRest_close_iff (by decide +kernel) coasted fun runs => by simp [ended] at runs]
    rintro (⟨runs, _⟩ | rest)
    · rw [ended] at runs
      cases runs
    · revert rest
      decide +kernel

end Master

end Fieldbus
