import Fieldbus.Proofs.Master.Reachable
import Mathlib.Tactic.SplitIfs

/-!
# How a master is set up

What becomes of a configuration file when a master is set up with it, and that no command changes
the settings afterwards.
-/

namespace Fieldbus

open Fieldbus.Action

namespace BusConfig

/-- A section of settings gives the mailbox timeout as a number. -/
theorem exists_sdoTimeout_of_ofNetwork {path : Text} {network : List (Text × Json)}
    {config : BusConfig} (read : ofNetwork path network = .ok config) :
    ∃ seconds, config.sdoTimeout = .ok seconds := by
  obtain ⟨cycleMs, _, read⟩ := except_bind_eq_ok_iff.mp read
  obtain ⟨sdoTimeoutMs, _, read⟩ := except_bind_eq_ok_iff.mp read
  obtain ⟨recvTimeoutUs, _, read⟩ := except_bind_eq_ok_iff.mp read
  dsimp only at read
  split at read
  · cases read
  · split at read
    · cases read
    · cases read
      exact ⟨_, rfl⟩

theorem exists_sdoTimeout_of_load {path : Text} {content : Option Bytes} {config : BusConfig}
    (loaded : load path content = .ok config) : ∃ seconds, config.sdoTimeout = .ok seconds := by
  rw [load] at loaded
  split at loaded
  · cases loaded
  · cases loaded
  · cases loaded
  · split at loaded
    · exact exists_sdoTimeout_of_ofNetwork loaded
    · cases loaded
  · cases loaded

theorem sdoTimeout_set {config changed : BusConfig} {name : String} {value : Payload}
    (other : name ≠ "sdo_timeout_ms") (done : config.set name value = .ok changed) :
    changed.sdoTimeout = config.sdoTimeout := by
  rw [set] at done
  split_ifs at done <;> cases done <;> rfl

theorem sdoTimeout_setAll {config changed : BusConfig} {settings : List (String × Payload)}
    (others : ∀ setting ∈ settings, setting.1 ≠ "sdo_timeout_ms")
    (done : config.setAll settings = .ok changed) : changed.sdoTimeout = config.sdoTimeout := by
  induction settings generalizing config with
  | nil =>
      cases done
      rfl
  | cons setting rest ih =>
      rw [setAll, List.foldlM_cons] at done
      obtain ⟨between, first, done⟩ := except_bind_eq_ok_iff.mp done
      have later : ∀ other ∈ rest, other.1 ≠ "sdo_timeout_ms" :=
        fun other member => others other (List.mem_cons_of_mem _ member)
      rw [ih later done, sdoTimeout_set (others setting List.mem_cons_self) first]

theorem sdoTimeout_withOverrides {config changed : BusConfig} {adapter cycleMs : Payload}
    (overridden :
      config.withOverrides [("adapter", adapter), ("cycle_ms", cycleMs)] = .ok changed) :
    changed.sdoTimeout = config.sdoTimeout := by
  refine sdoTimeout_setAll ?_ overridden
  intro setting member
  have listed := (List.mem_filter.mp member).1
  simp only [List.mem_cons, List.not_mem_nil, or_false] at listed
  rcases listed with rfl | rfl <;> simp

end BusConfig

namespace Master

variable {ε : Type}

section Files

variable {engine : ε} {adapter cycleMs : Payload} {given : Option BusConfig} {path : Text}
  {content : Bytes} {document : Json} {master : Master ε}

/-- Set up a master with a file, once it is known which settings to override. -/
def setUp (engine : ε) (adapter cycleMs : Payload) (path : Text) (content : Bytes)
    (base : BusConfig) : Except Fault (Master ε) := do
  let config ← (base.withOverrides [("adapter", adapter), ("cycle_ms", cycleMs)]).mapError
    Fault.accident
  let pdoConfig ←
    if config.configurePdo.isSet then (PdoConfig.load path (some content)).map some else pure none
  return idle config pdoConfig engine

theorem create_eq_setUp :
    create engine adapter cycleMs given (some (path, some content)) =
      (given.map Except.ok).getD (BusConfig.load path (some content)) >>=
        setUp engine adapter cycleMs path content := by
  cases given with
  | none => rfl
  | some base => rfl

/-- How a master comes about that is set up with a file. -/
theorem exists_of_create
    (created : create engine adapter cycleMs given (some (path, some content)) = .ok master) :
    ∃ base config pdoConfig,
      (given.map Except.ok).getD (BusConfig.load path (some content)) = .ok base ∧
      base.withOverrides [("adapter", adapter), ("cycle_ms", cycleMs)] = .ok config ∧
      (if config.configurePdo.isSet then (PdoConfig.load path (some content)).map some
        else .ok none) = .ok pdoConfig ∧
      master = idle config pdoConfig engine := by
  rw [create_eq_setUp] at created
  obtain ⟨base, based, created⟩ := except_bind_eq_ok_iff.mp created
  rw [setUp] at created
  obtain ⟨config, changed, created⟩ := except_bind_eq_ok_iff.mp created
  have overridden := except_mapError_eq_ok_iff.mp changed
  by_cases asked : config.configurePdo.isSet = true
  · rw [if_pos asked] at created
    obtain ⟨pdoConfig, loaded, created⟩ := except_bind_eq_ok_iff.mp created
    cases created
    refine ⟨base, config, pdoConfig, based, overridden, ?_, rfl⟩
    rw [if_pos asked, loaded]
  · rw [if_neg asked] at created
    cases created
    exact ⟨base, config, none, based, overridden, if_neg asked, rfl⟩

/-- A master that is set up with a file and switched to assign has the lists of the file. -/
theorem pdoConfig_of_create (isDocument : Json.ofBytes content = .ok document)
    (created : create engine adapter cycleMs given (some (path, some content)) = .ok master)
    (switched : master.config.configurePdo.isSet = true) :
    ∃ config, PdoConfig.ofDocument document = .ok config ∧ master.pdoConfig = some config := by
  obtain ⟨_, config, pdoConfig, _, _, loaded, rfl⟩ := exists_of_create created
  have asked : config.configurePdo.isSet = true := switched
  rw [if_pos asked, PdoConfig.load, Option.map_some, isDocument] at loaded
  dsimp only at loaded
  cases read : (PdoConfig.ofDocument document).mapError Fault.accident with
  | error fault =>
      rw [read] at loaded
      cases loaded
  | ok lists =>
      rw [read] at loaded
      cases loaded
      exact ⟨lists, except_mapError_eq_ok_iff.mp read, rfl⟩

/-- A master has a mailbox timeout if the settings that it was given have one. -/
theorem exists_sdoTimeout_of_create
    (created : create engine adapter cycleMs given (some (path, some content)) = .ok master)
    (timed : ∀ config, given = some config → ∃ seconds, config.sdoTimeout = .ok seconds) :
    ∃ seconds, master.config.sdoTimeout = .ok seconds := by
  obtain ⟨base, config, pdoConfig, based, overridden, _, rfl⟩ := exists_of_create created
  have baseTimed : ∃ seconds, base.sdoTimeout = .ok seconds := by
    cases given with
    | none => exact BusConfig.exists_sdoTimeout_of_load based
    | some _ =>
        cases based
        exact timed _ rfl
  rwa [← BusConfig.sdoTimeout_withOverrides overridden] at baseTimed

end Files

section Settings

variable [Engine ε]

/-- The settings of a master and the lists that it was given. -/
def settings (master : Master ε) : BusConfig × Option PdoConfig :=
  (master.config, master.pdoConfig)

instance : AllowsSession (Keep (settings (ε := ε))) where
  session _ _ := rfl

instance : AllowsStates (Keep (settings (ε := ε))) where
  lastWkc _ _ := rfl
  okCount _ _ := rfl
  errorCount _ _ := rfl
  handles _ _ := rfl
  running _ _ := rfl
  inOp _ _ := rfl
  opened _ _ := rfl
  connects _ := moves_ask _
  disconnects := moves_ask _

theorem settings_configure : Moves (Keep settings) (configure (ε := ε)) := by
  refine moves_configure (moves_layOut ?_ (moves_ask _)) (moves_discoverAll ?_)
  · intro _
    rfl
  · intro _ _ _ _
    rfl

theorem settings_performAll (commands : List Command) (master : Master ε) :
    (Command.performAll commands master).settings = master.settings := by
  induction commands generalizing master with
  | nil => rfl
  | cons command rest ih => exact (ih _).trans (moves_perform settings_configure command master)

end Settings

end Master

end Fieldbus
