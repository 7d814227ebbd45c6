import Fieldbus.Proofs.Master.Hidden

/-!
# Isolation of discovery

What a configuration pass finds out about a slave does not depend on the other slaves: masters
that differ in one slave only come equally far and find the same of every other slave, whatever
the one slave holds and wherever it fails.
-/

namespace Fieldbus

namespace Master

open Fieldbus.Action

variable {slave size : Nat}

section Stages

inductive Stage where
  | preparation | assignment | layout | discovery | validation | insistence
  deriving DecidableEq, Repr

/-- Whether a stage comes before the slaves are discovered. -/
def Stage.isEarly : Stage → Bool
  | .preparation | .assignment | .layout => true
  | .discovery | .validation | .insistence => false

/-- An action whose faults name the stage that it is. -/
def during {σ α : Type} (stage : Stage) (action : Action σ α) : EStateM (Stage × Fault) σ α :=
  Action.mapFault (Prod.mk stage) action

/-- A configuration pass whose faults name the stage at which it stops. -/
def staged {ε : Type} [Engine ε] : EStateM (Stage × Fault) (Master ε) Unit := do
  let count ← during .preparation prepare
  during .assignment (assign count)
  during .layout layOut
  during .discovery (discoverAll count)
  let master ← get
  during .validation (validateAll (master.maps.map Prod.fst))
  during .insistence insistOnDiscovery

theorem mapFault_snd_during {σ α : Type} (stage : Stage) (action : Action σ α) :
    Action.mapFault Prod.snd (during stage action) = action := by
  funext state
  unfold during Action.mapFault
  cases action state with
  | ok value after => rfl
  | error fault after => rfl

theorem mapFault_snd_staged {ε : Type} [Engine ε] :
    Action.mapFault Prod.snd staged = configure (ε := ε) := by
  have seen : Action.mapFault Prod.snd (get : EStateM (Stage × Fault) (Master ε) (Master ε)) =
      get := rfl
  simp only [staged, configure, mapFault_bind, mapFault_snd_during, seen]

section Early

variable {proper : Master MemoryEngine → Prop} {α : Type} {values : α → Prop}
  {action : Action (Master MemoryEngine) α} {stage : Stage}

theorem contained_early (isEarly : stage.isEarly)
    (contained : Contained proper (fun _ => True) values action) :
    Contained proper (fun fault => fault.1.isEarly) values (during stage action) :=
  contained.mapFault fun _ _ => isEarly

theorem contained_silent (contained : Contained proper never values action) :
    Contained proper (fun fault => fault.1.isEarly) values (during stage action) :=
  contained.mapFault fun _ impossible => impossible.elim

end Early

/-- Only before discovery does a pass stop. -/
theorem contained_staged (inside : slave < size) :
    Contained (Sound size) (fun fault => fault.1.isEarly) (fun _ => True) staged := by
  refine (contained_early rfl (contained_of_couples inside couples_prepare)).bind ?_
  rintro count ⟨_, countEq, _⟩
  rw [countEq]
  refine (contained_early rfl (contained_of_couples inside (couples_assign _))).bind ?_
  intro _ _
  refine (contained_early rfl (contained_of_couples inside couples_layOut)).bind ?_
  intro _ _
  refine (contained_silent contained_discoverAll).bind_of_ok ?_
  intro before _ after sound discovered _ afterSound
  have maps := maps_of_discoverAll sound (mapFault_eq_ok_iff.mp discovered)
  have validated : Contained (fun master => Sound size master ∧ master.maps = after.maps) never
      (fun _ => True) (validateAll (after.maps.map Prod.fst)) :=
    contained_validateAll maps.1 maps.2 fun _ => Table.exists_of_mem_keys
  have judged : Contained (fun master => Sound size master ∧ master.maps = after.maps) never
      (fun _ => True) insistOnDiscovery := by
    intro master known
    rw [insistOnDiscovery_of_sound known.1]
    exact .ok trivial known
  rw [Action.bind_of_ok (get_apply after)]
  have rest : Contained (fun master => Sound size master ∧ master.maps = after.maps)
      (fun fault => fault.1.isEarly) (fun _ => True) (do
        during .validation (validateAll (after.maps.map Prod.fst))
        during .insistence insistOnDiscovery) :=
    (contained_silent validated).bind fun _ _ => contained_silent judged
  exact (rest after ⟨afterSound, rfl⟩).mono fun _ known => known.1

theorem couples_staged : Couples (Twins slave size) Eq staged staged := by
  refine (couples_prepare.mapFault _).bind ?_
  rintro leftCount rightCount ⟨leftEq, rightEq⟩
  rw [leftEq, rightEq]
  refine ((couples_assign _).mapFault _).bind ?_
  intro _ _ _
  refine (couples_layOut.mapFault _).bind ?_
  intro _ _ _
  refine (couples_discoverAll.mapFault _).bind_of_ok ?_
  intro left _ leftAfter right _ rightAfter before leftDiscovered rightDiscovered _ twins
  have leftMaps := maps_of_discoverAll before.firstSound (mapFault_eq_ok_iff.mp leftDiscovered)
  have rightMaps := maps_of_discoverAll before.secondSound (mapFault_eq_ok_iff.mp rightDiscovered)
  have skips : Skips slave (leftAfter.maps.map Prod.fst) (rightAfter.maps.map Prod.fst) := by
    apply skips_of_filter_eq _ leftMaps.2
    rw [← Table.keys_without, ← Table.keys_without, twins.maps]
  have validated : Couples (Holding slave size leftAfter.maps rightAfter.maps) Eq
      (validateAll (leftAfter.maps.map Prod.fst)) (validateAll (rightAfter.maps.map Prod.fst)) :=
    couples_validateAll leftMaps.1 rightMaps.1 skips (fun _ => Table.exists_of_mem_keys)
      fun _ => Table.exists_of_mem_keys
  have judged : Couples (Holding slave size leftAfter.maps rightAfter.maps) Eq insistOnDiscovery
      insistOnDiscovery :=
    couples_insistOnDiscovery.keeping moves_insistOnDiscovery moves_insistOnDiscovery
  rw [Action.bind_of_ok (get_apply leftAfter), Action.bind_of_ok (get_apply rightAfter)]
  have rest := (validated.mapFault (Prod.mk Stage.validation)).bind fun _ _ _ =>
    judged.mapFault (Prod.mk Stage.insistence)
  exact (rest leftAfter rightAfter ⟨twins, rfl, rfl⟩).mono fun _ _ holding => holding.1

theorem couples_configure : Couples (Twins slave size) Eq configure configure := by
  rw [← mapFault_snd_staged]
  exact couples_staged.mapFault Prod.snd

end Stages

/-- Two masters come equally far with a configuration pass: it succeeds for both, or stops for
both with the same fault at the same stage before discovery.  Afterwards they know the same of
every slave but one: its objects, its map or that it has none, and the fault of its
discovery. -/
structure Isolated (slave : Nat) (first second : Master MemoryEngine) : Prop where
  outcome : Action.outcome (configure first) = Action.outcome (configure second)
  stages : Action.outcome (staged first) = Action.outcome (staged second)
  early : ∀ stage fault, Action.outcome (staged first) = .error (stage, fault) → stage.isEarly
  objects : ∀ other : Int, other ≠ slave →
    (final (configure first)).dictionary.get? other =
      (final (configure second)).dictionary.get? other
  maps : ∀ other : Int, other ≠ slave →
    (final (configure first)).maps.get? other = (final (configure second)).maps.get? other
  faults : ∀ other : Int, other ≠ slave →
    (final (configure first)).discoveryFaults.get? other =
      (final (configure second)).discoveryFaults.get? other

/-- Discovery is isolated: of two masters with lenient settings that differ only in the
objects, the mailbox and the failures of one slave, each finds what the other does of all
other slaves, wherever the discovery of the one slave fails in either. -/
theorem isolated_of_twins {first second : Master MemoryEngine}
    (twins : Twins slave size first second) : Isolated slave first second := by
  have after := (couples_configure first second twins).final
  refine ⟨(couples_configure first second twins).outcome_eq,
    (couples_staged first second twins).outcome_eq, ?_, ?_, ?_, ?_⟩
  · intro stage fault failed
    have ended := contained_staged twins.inside first twins.firstSound
    generalize staged first = outcome at ended failed
    cases ended with
    | ok _ _ => cases failed
    | error isEarly _ =>
        cases failed
        exact isEarly
  · intro other different
    exact Table.get?_eq_of_without different after.dictionary
  · intro other different
    exact Table.get?_eq_of_without different after.maps
  · intro other different
    exact Table.get?_eq_of_without different after.discoveryFaults

/-- A slave whose objects cannot be listed. -/
def muteSlave : SimulatedSlave :=
  { SimulatedSlave.plain with listError := some ⟨.sdoInfo, "no SDO info support", none, none⟩ }

/-- The same slave with an object, of which it does not describe the entries. -/
def curtSlave : SimulatedSlave :=
  { SimulatedSlave.plain with
    objects := [⟨0x1000, 7, 7, some 0, .text "Device type",
      [⟨7, 32, 7, .text "Device type"⟩], 32, 7⟩]
    entriesError := some (0, ⟨.sdoInfo, "timeout", none, none⟩) }

/-- A slave with an output of one byte, which its dictionary describes and its only PDO maps. -/
def lampSlave : SimulatedSlave :=
  { SimulatedSlave.plain with
    outputBytes := 1
    objects := [⟨0x7000, 0, 7, some 1, .text "Lamp",
      [⟨5, 8, 7, .text []⟩, ⟨5, 8, 7, .text "Level"⟩], 8, 7⟩]
    mailbox := [
      (⟨0x1c00, 0⟩, [.data [3]]), (⟨0x1c00, 3⟩, [.data [3]]),
      (⟨0x1c12, 0⟩, [.data [1]]), (⟨0x1c12, 1⟩, [.data [0x00, 0x16]]),
      (⟨0x1600, 0⟩, [.data [1]]), (⟨0x1600, 1⟩, [.data (Layout.mappingWord 0x7000 1 8)])] }

/-- A master of some slave followed by a lamp. -/
def pairMaster (first : SimulatedSlave) : Master MemoryEngine :=
  idle BusConfig.defaults none
    (MemoryEngine.ofSegment { Segment.bare with slaves := [first, lampSlave] })

/-- The object and the map of the lamp are found whichever way the first slave fails. -/
theorem isolated_of_twins_pairMaster :
    Twins 0 2 (pairMaster muteSlave) (pairMaster curtSlave) ∧
      Isolated 0 (pairMaster muteSlave) (pairMaster curtSlave) ∧
      ∀ first ∈ [muteSlave, curtSlave],
        ((final (configure (pairMaster first))).dictionary.get? 1).map
            (·.map fun object => (object.index, object.entries.length)) = some [(0x7000, 2)] ∧
          ((final (configure (pairMaster first))).maps.get? 1).map
            (fun map => map.entries.map (·.entry)) = some [⟨0x7000, 1⟩] ∧
          (final (configure (pairMaster first))).discoveryFaults.map Prod.fst = [0] := by
  have numeric : ∃ seconds, BusConfig.defaults.sdoTimeout = .ok seconds := by
    have isNumeric : BusConfig.defaults.sdoTimeout.toOption.isSome = true := by decide +kernel
    cases outcome : BusConfig.defaults.sdoTimeout with
    | ok seconds => exact ⟨seconds, rfl⟩
    | error accident =>
        rw [outcome] at isNumeric
        cases isNumeric
  have sound (first : SimulatedSlave) : Sound 2 (pairMaster first) := by
    refine ⟨⟨rfl, rfl, ?_⟩, ⟨rfl, numeric, rfl, rfl⟩⟩
    intro micros member
    rw [List.mem_singleton.mp member]
    exact MemoryEngine.exists_secondsOf_zero
  have twins : Twins 0 2 (pairMaster muteSlave) (pairMaster curtSlave) :=
    ⟨rfl, by decide, sound muteSlave, sound curtSlave⟩
  exact ⟨twins, isolated_of_twins twins, by decide +kernel⟩

end Master

end Fieldbus
