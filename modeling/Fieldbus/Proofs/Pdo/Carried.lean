import Fieldbus.Master.Configuration
import Fieldbus.Proofs.Engine.Logged
import Fieldbus.Proofs.Pdo.Assigning

/-!
# Assignments in the log of an engine

What an assignment asks of any engine.  It only writes, and unless a write is refused or a number
has no place in its field, what it writes is its plan, step by step.
-/

namespace Fieldbus

open Fieldbus.Action

namespace Event

def isDownload : Event → Bool
  | download .. => true
  | _ => false

def accepted : Event → Bool
  | download _ _ _ _ _ (.error _) => false
  | _ => true

end Event

/-- Only writes are made; and if the plan can be made and no write is refused, all of it is made
and the action succeeds. -/
def Carries (possible : Prop) (plan : List Event) (ended : Except Fault Unit)
    (written : List Event) : Prop :=
  (∀ event ∈ written, event.isDownload) ∧
    (possible → (∀ event ∈ written, event.accepted) → ended = .ok () ∧ written = plan)

namespace Carries

variable {possible later : Prop} {plan more : List Event}

theorem nothing : Carries possible [] (.ok ()) [] := by
  constructor
  · simp
  · intro _ _
    exact ⟨rfl, rfl⟩

/-- A failure before anything is written, of a plan that cannot be made. -/
theorem impossible (never : ¬ possible) (fault : Fault) :
    Carries possible plan (.error fault) [] := by
  constructor
  · simp
  · intro possible
    exact absurd possible never

section Sequences

variable {σ : Type} {proper : σ → Prop} {log : σ → List Event} {first second : Action σ Unit}

theorem bind (tells : Tells proper log (Carries possible plan) first)
    (goes : Tells proper log (Carries later more) second) :
    Tells proper log (Carries (possible ∧ later) (plan ++ more)) (first >>= fun _ => second) := by
  refine tells.bind ?_ ?_
  · rintro fault written ⟨writes, told⟩
    refine ⟨writes, ?_⟩
    rintro ⟨holds, _⟩ accepted
    cases (told holds accepted).1
  · rintro _ before ⟨writes, told⟩
    refine goes.mono ?_
    rintro ended written ⟨moreWrites, toldMore⟩
    constructor
    · exact List.forall_mem_append.mpr ⟨writes, moreWrites⟩
    · rintro ⟨holds, holdsLater⟩ accepted
      obtain ⟨_, rfl⟩ :=
        told holds fun event member => accepted event (List.mem_append_left _ member)
      obtain ⟨succeeds, rfl⟩ :=
        toldMore holdsLater fun event member => accepted event (List.mem_append_right _ member)
      exact ⟨succeeds, rfl⟩

end Sequences

theorem weaken {ended : Except Fault Unit} {written : List Event} {stronger : Prop}
    (implies : stronger → possible) (carries : Carries possible plan ended written) :
    Carries stronger plan ended written :=
  ⟨carries.1, fun holds => carries.2 (implies holds)⟩

end Carries

namespace Assignment

variable {ε : Type} [Engine ε] (slave : Int) (direction : Direction) (timeout : Number)

/-- A step that the engine has accepted. -/
def Step.made (step : Step) : Event :=
  .download slave step.entry false step.data timeout (.ok ())

/-- The writes of a slave that has lists or none. -/
def writes : Option PdoLists → List Event
  | some lists => (steps lists).map (Step.made slave timeout)
  | none => []

theorem tells_write (subindex : Nat) (data : Bytes) (label : Text) :
    Tells (fun _ => True) (Session.events (ε := ε))
      (Carries True [.download slave ⟨direction.index, subindex⟩ false data timeout (.ok ())])
      (write slave direction subindex data label timeout) := by
  apply Tells.mapFault
  apply Session.tells_ask
  apply Logged.tells_noted (.download slave ⟨direction.index, subindex⟩ false data timeout) _ rfl
  intro answer
  constructor
  · intro event member
    rw [List.mem_singleton.mp member]
    rfl
  · intro _ accepted
    cases answer with
    | ok _ => exact ⟨rfl, rfl⟩
    | error fault => cases accepted _ (List.mem_singleton.mpr rfl)

/-- A step writes its number if it fits its field, and else fails before it writes. -/
theorem tells_step (step : Step) {subindex : Nat} (label : Text)
    (entry : step.entry = ⟨direction.index, subindex⟩) :
    Tells (fun _ => True) (Session.events (ε := ε)) (Carries step.Fits [step.made slave timeout])
      (do
        let data ← Action.ofAccident (field step.width step.value)
        write slave direction subindex data label timeout) := by
  cases stored : field step.width step.value with
  | ok data =>
      obtain ⟨_, rfl⟩ := field_eq_ok_iff.mp stored
      refine (tells_write slave direction timeout subindex step.data label).mono ?_
      intro ended written carries
      rw [Step.made, entry]
      exact carries.weaken fun _ => trivial
  | error accident =>
      apply Tells.throw
      apply Carries.impossible
      intro fits
      rw [field_eq_ok_iff.mpr ⟨fits, rfl⟩] at stored
      cases stored

theorem tells_writeIndices (subindex : Nat) (pdos : List Int) :
    Tells (fun _ => True) (Session.events (ε := ε))
      (Carries (∀ step ∈ indexSteps direction subindex pdos, step.Fits)
        ((indexSteps direction subindex pdos).map (Step.made slave timeout)))
      (writeIndices slave direction timeout subindex pdos) := by
  induction pdos generalizing subindex with
  | nil => exact .pure .nothing
  | cons pdo rest ih =>
      have steps := Carries.bind
        (tells_step slave direction timeout ⟨⟨direction.index, subindex⟩, 2, pdo⟩
          s!"{direction.label}[{subindex}]=0x{Numeral.hex 4 pdo}" rfl)
        (ih (subindex + 1))
      rw [bind_assoc] at steps
      refine steps.mono ?_
      intro ended written carries
      exact carries.weaken List.forall_mem_cons.mp

theorem tells_writeDirection (pdos : List Int) :
    Tells (fun _ => True) (Session.events (ε := ε))
      (Carries (∀ step ∈ directionSteps direction pdos, step.Fits)
        ((directionSteps direction pdos).map (Step.made slave timeout)))
      (writeDirection slave direction pdos timeout) := by
  have clears := tells_write (ε := ε) slave direction timeout 0 [0]
    s!"clear {direction.label} count"
  have counts := tells_step (ε := ε) slave direction timeout (countStep direction pdos.length)
    s!"set {direction.label} count={pdos.length}" rfl
  have steps := Carries.bind clears
    (Carries.bind (tells_writeIndices slave direction timeout 1 pdos) counts)
  refine steps.mono ?_
  intro ended written carries
  rw [directionSteps, List.map_cons, List.map_append]
  refine carries.weaken ?_
  intro fits
  rw [List.forall_mem_cons, List.forall_mem_append, List.forall_mem_singleton] at fits
  exact ⟨trivial, fits.2⟩

/-- An assignment makes the steps of its plan. -/
theorem tells_configure (lists : PdoLists) :
    Tells (fun _ => True) (Session.events (ε := ε))
      (Carries (∀ step ∈ steps lists, step.Fits) ((steps lists).map (Step.made slave timeout)))
      (configure slave lists timeout) := by
  have directions := Carries.bind (tells_writeDirection (ε := ε) slave outputs timeout lists.rx)
    (tells_writeDirection slave inputs timeout lists.tx)
  refine directions.mono ?_
  intro ended written carries
  rw [steps, List.map_append]
  exact carries.weaken List.forall_mem_append.mp

end Assignment

namespace PdoConfig

/-- The writes of the slaves from a position on that have lists. -/
def writes (config : PdoConfig) (timeout : Number) (count position : Nat) : List Event :=
  (List.range' position count).flatMap fun (slave : Nat) =>
    Assignment.writes slave timeout (config.lookup? slave)

/-- There is a timeout, and all numbers have a place in their fields. -/
def IsWritable (config : PdoConfig) (settings : BusConfig) (seconds : Binary64) : Prop :=
  settings.sdoTimeout = .ok seconds ∧ ∀ (slave : Nat) (lists : PdoLists),
    config.lookup? slave = some lists → ∀ step ∈ Assignment.steps lists, step.Fits

theorem writes_succ (config : PdoConfig) (timeout : Number) (count position : Nat) :
    config.writes timeout (count + 1) position =
      Assignment.writes position timeout (config.lookup? position) ++
        config.writes timeout count (position + 1) := by
  rw [writes, List.range'_succ, List.flatMap_cons]
  rfl

end PdoConfig

namespace Master

variable {ε : Type} [Engine ε] {proper : Master (Logged ε) → Prop}
  [AllowsSession (Preserve proper)] {settings : BusConfig} {config : PdoConfig}

/-- The assignment of one slave is made with the timeout of the settings. -/
theorem tells_assignment (seconds : Binary64)
    (known : ∀ master, proper master → master.config = settings) {slave : Nat} {lists : PdoLists}
    (found : config.lookup? slave = some lists) :
    Tells proper events
      (Carries (config.IsWritable settings seconds)
        ((Assignment.steps lists).map (Assignment.Step.made slave (.real seconds))))
      (do
        let timeout ← sdoTimeout
        inSession (Assignment.configure slave lists timeout)) := by
  have timed : Tells proper events (fun ended written => written = [] ∧
      ended = (settings.sdoTimeout.mapError Fault.accident).map Number.real)
        (sdoTimeout (ε := Logged ε)) := by
    apply tells_sdoTimeout
    intro master isProper
    rw [known master isProper]
    exact ⟨rfl, rfl⟩
  refine timed.bind ?_ ?_
  · rintro fault _ ⟨rfl, ended⟩
    apply Carries.impossible
    rintro ⟨given, _⟩
    rw [given] at ended
    cases ended
  · rintro timeout _ ⟨rfl, ended⟩
    refine (tells_inSession (Assignment.tells_configure slave timeout lists)).mono ?_
    rintro result written ⟨writes, told⟩
    refine ⟨writes, ?_⟩
    rintro ⟨given, fits⟩ accepted
    rw [given] at ended
    cases ended
    exact told (fits slave lists found) accepted

/-- A pass makes the writes of every slave that has lists, in ascending order. -/
theorem tells_assignFrom (seconds : Binary64)
    (known : ∀ master, proper master → master.config = settings) (count position : Nat) :
    Tells proper events
      (Carries (config.IsWritable settings seconds) (config.writes (.real seconds) count position))
      (assignFrom config count position) := by
  induction count generalizing position with
  | zero => exact .pure .nothing
  | succ count ih =>
      rw [assignFrom, PdoConfig.writes_succ]
      cases found : config.lookup? position with
      | none => exact ih (position + 1)
      | some lists =>
          have steps := Carries.bind (tells_assignment seconds known found) (ih (position + 1))
          rw [bind_assoc] at steps
          refine steps.mono ?_
          intro ended written carries
          exact carries.weaken fun holds => ⟨holds, holds⟩

/-- A master that was given no lists assigns nothing; any other one makes the writes of its
lists. -/
theorem tells_assign (seconds : Binary64) {given : Option PdoConfig}
    (known : ∀ master, proper master → master.config = settings)
    (holds : ∀ master, proper master → master.pdoConfig = given) (count : Nat) :
    Tells proper events
      (Carries (∀ config, given = some config → config.IsWritable settings seconds)
        ((given.map fun config => config.writes (.real seconds) count 0).getD []))
      (assign count) := by
  refine Tells.bind_get ?_
  intro master isProper
  rw [holds master isProper]
  cases given with
  | none => exact .pure .nothing
  | some config =>
      refine (tells_assignFrom seconds known count 0).mono ?_
      intro ended written carries
      exact carries.weaken fun writable => writable config rfl

end Master

end Fieldbus
