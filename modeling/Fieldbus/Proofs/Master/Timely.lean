import Fieldbus.Proofs.Pdo.Carried

/-!
# What has to come before an event of a pass

Which events of the same configuration pass have to come before each of its events, and the story
of a phase that keeps to this order whatever the engine answers.
-/

namespace Fieldbus

open Fieldbus.Action

inductive Phase where
  | ending | initialising | counting | readying | assigning | mapping | synchronising
  | discovering | validating | insisting
  deriving DecidableEq, Repr

/-- The place of a phase in a pass. -/
def Phase.rank : Phase → Nat
  | .ending => 0
  | .initialising => 1
  | .counting => 2
  | .readying => 3
  | .assigning => 4
  | .mapping => 5
  | .synchronising => 6
  | .discovering => 7
  | .validating => 8
  | .insisting => 9

/-- The phase in which the slaves reach a state. -/
def AlState.phase? : AlState → Option Phase
  | .init => some .initialising
  | .preOp => some .readying
  | _ => Option.none

/-- The phase of a configuration pass that an event belongs to. -/
def Event.phase? : Event → Option Phase
  | .taskJoined => some .ending
  | .requestState code _ | .checkState code _ _ => (AlState.ofCode? code).bind AlState.phase?
  | .enumerate .. => some .counting
  | .download .. => some .assigning
  | .mapImage .. => some .mapping
  | .configureClocks .. => some .synchronising
  | .objectList .. | .objectDescription .. | .entryList .. | .upload .. => some .discovering
  | .slaveInfo .. => some .validating
  | _ => none

namespace History

def Asked (state : AlState) (before : List Event) : Prop :=
  .requestState state.code (.ok ()) ∈ before

def Reached (state : AlState) (before : List Event) : Prop :=
  .checkState state.code Master.stateTimeout (.ok state.code) ∈ before

def Enumerated (before : List Event) : Prop :=
  ∃ count, 0 < count ∧ .enumerate (.ok count) ∈ before

def ImageMapped (before : List Event) : Prop :=
  ∃ size, .mapImage (.ok size) ∈ before

/-- The descriptions of so many objects from a place on, one after the other and none refused. -/
inductive Walk (slave : Int) : (count item : Nat) → List Event → Prop
  | done (item : Nat) : Walk slave 0 item []
  | next {count item : Nat} {description : ObjectDescription} {entries : List EntryDescription}
      {rest : List Event} : Walk slave count (item + 1) rest →
      Walk slave (count + 1) item (.objectDescription slave item (.ok description) ::
        .entryList slave item (.ok entries) :: rest)

/-- The dictionary of a slave was read to its end, without anything in between. -/
def Walked (slave : Int) (before : List Event) : Prop :=
  ∃ indices walk, Walk slave indices.length 0 walk ∧
    (.objectList slave (.ok indices) :: walk) <:+: before

variable {before more : List Event} {state : AlState} {slave : Int}

theorem Reached.append (reached : Reached state before) : Reached state (before ++ more) :=
  List.mem_append_left _ reached

theorem Enumerated.append (enumerated : Enumerated before) : Enumerated (before ++ more) := by
  obtain ⟨count, positive, member⟩ := enumerated
  exact ⟨count, positive, List.mem_append_left _ member⟩

theorem ImageMapped.append (mapped : ImageMapped before) : ImageMapped (before ++ more) := by
  obtain ⟨size, member⟩ := mapped
  exact ⟨size, List.mem_append_left _ member⟩

theorem Walked.append (walked : Walked slave before) : Walked slave (before ++ more) := by
  obtain ⟨indices, walk, walks, inside⟩ := walked
  exact ⟨indices, walk, walks, inside.trans (List.prefix_append _ _).isInfix⟩

end History

open History

/-- What has to come before an event in the same pass. -/
def Event.Timely (before : List Event) : Event → Prop
  | .taskJoined => before = []
  | .requestState state _ =>
      state = AlState.init.code ∨ state = AlState.preOp.code ∧ Enumerated before
  | .checkState state _ _ => .requestState state (.ok ()) ∈ before
  | .enumerate _ => Reached .init before
  | .download .. => Reached .preOp before ∧ ∀ answer, .mapImage answer ∉ before
  | .mapImage _ => Reached .preOp before
  | .configureClocks _ => ImageMapped before
  | .objectList .. | .objectDescription .. | .entryList .. => ImageMapped before
  | .upload slave .. => ImageMapped before ∧ Walked slave before
  | .slaveInfo .. => ImageMapped before
  | _ => False

/-- After some events, each of the next ones comes in time. -/
def Orderly (before events : List Event) : Prop :=
  ∀ front event back, events = front ++ event :: back → event.Timely (before ++ front)

namespace Orderly

variable {before events more : List Event} {kind : Event → Prop}

theorem nil : Orderly before [] := by
  intro front event back split
  simp at split

theorem singleton {event : Event} (timely : event.Timely before) : Orderly before [event] := by
  intro front other back split
  cases front with
  | nil =>
      cases split
      rw [List.append_nil]
      exact timely
  | cons first rest => simp at split

theorem append (first : Orderly before events) (second : Orderly (before ++ events) more) :
    Orderly before (events ++ more) := by
  intro front event back split
  rcases List.append_eq_append_iff.mp split with ⟨later, rfl, rest⟩ | ⟨later, rfl, rest⟩
  · rw [← List.append_assoc]
    exact second later event back rest
  · cases later with
    | nil =>
        have timely := second [] event back rest.symm
        rw [List.append_nil, List.append_nil] at timely
        exact timely
    | cons other remaining =>
        obtain ⟨rfl, _⟩ := List.cons.inj rest
        exact first front event remaining rfl

/-- Events of a kind that does not wait for any of its own come in time together. -/
theorem of_kind (same : ∀ event ∈ events, kind event)
    (timely : ∀ event front, kind event → (∀ other ∈ front, kind other) →
      event.Timely (before ++ front)) : Orderly before events := by
  rintro front event back rfl
  apply timely
  · exact same event (by simp)
  · intro other member
    exact same other (List.mem_append_left _ member)

end Orderly

/-- The events of a phase come in time after those before it, and something is known of all of
them when it succeeds. -/
def KeepsOrder {φ α : Type} (phase : Phase) (before : List Event)
    (known : α → List Event → Prop) (ended : Except φ α) (written : List Event) : Prop :=
  Orderly before written ∧ (∀ event ∈ written, event.phase? = some phase) ∧
    ∀ value, ended = .ok value → known value (before ++ written)

namespace KeepsOrder

variable {φ ψ σ α β : Type} {phase : Phase} {before : List Event} {proper : σ → Prop}
  {log : σ → List Event} {known : α → List Event → Prop} {later : β → List Event → Prop}

theorem ok {value : α} (holds : known value before) :
    KeepsOrder phase before known (.ok value : Except φ α) [] := by
  refine ⟨.nil, by simp, ?_⟩
  rintro _ ⟨⟩
  rw [List.append_nil]
  exact holds

theorem error {fault : φ} : KeepsOrder phase before known (.error fault : Except φ α) [] := by
  refine ⟨.nil, by simp, ?_⟩
  rintro _ ⟨⟩

theorem asked {event : Except φ α → Event} {answer : Except φ α}
    (timely : (event answer).Timely before) (inside : (event answer).phase? = some phase)
    (holds : ∀ value, answer = .ok value → known value (before ++ [event (.ok value)])) :
    KeepsOrder phase before known answer [event answer] := by
  refine ⟨.singleton timely, ?_, ?_⟩
  · intro other member
    rw [List.mem_singleton.mp member]
    exact inside
  · rintro value rfl
    exact holds value rfl

theorem trans {ended : Except φ α} {next : Except φ β} {written more : List Event}
    (first : KeepsOrder phase before known ended written)
    (second : KeepsOrder phase (before ++ written) later next more) :
    KeepsOrder phase before later next (written ++ more) := by
  obtain ⟨order, inside, _⟩ := first
  obtain ⟨moreOrder, moreInside, told⟩ := second
  refine ⟨order.append moreOrder, List.forall_mem_append.mpr ⟨inside, moreInside⟩, ?_⟩
  intro value same
  rw [← List.append_assoc]
  exact told value same

/-- A sequence keeps to the order if its second step does after what is known of the first. -/
theorem bind {action : EStateM φ σ α} {next : α → EStateM φ σ β} (known : α → List Event → Prop)
    (first : Tells proper log (KeepsOrder phase before known) action)
    (second : ∀ value written, known value (before ++ written) →
      Tells proper log (KeepsOrder phase (before ++ written) later) (next value)) :
    Tells proper log (KeepsOrder phase before later) (action >>= next) := by
  refine first.bind ?_ ?_
  · rintro fault written ⟨order, inside, _⟩
    refine ⟨order, inside, ?_⟩
    rintro _ ⟨⟩
  · intro value written told
    exact (second value written (told.2.2 value rfl)).mono fun _ _ => told.trans

/-- A first step that writes nothing leaves the order to the second one. -/
theorem after_silence {action : EStateM φ σ α} {next : α → EStateM φ σ β}
    (first : Tells proper log (fun _ written => ∀ event ∈ written, False) action)
    (second : ∀ value, Tells proper log (KeepsOrder phase before later) (next value)) :
    Tells proper log (KeepsOrder phase before later) (action >>= next) := by
  have silent : Tells proper log (KeepsOrder phase before fun _ now => now = before) action := by
    refine first.mono ?_
    intro ended written none
    obtain rfl := List.eq_nil_iff_forall_not_mem.mpr none
    cases ended with
    | ok value => exact .ok rfl
    | error fault => exact .error
  refine bind _ silent ?_
  intro value written same
  rw [same]
  exact second value

theorem mono {action : EStateM φ σ α} {other : α → List Event → Prop}
    (tells : Tells proper log (KeepsOrder phase before known) action)
    (implies : ∀ value written, known value (before ++ written) → other value (before ++ written)) :
    Tells proper log (KeepsOrder phase before other) action := by
  refine Tells.mono tells ?_
  rintro ended written ⟨order, inside, told⟩
  exact ⟨order, inside, fun value same => implies value written (told value same)⟩

theorem mapFault {action : EStateM φ σ α} (change : φ → ψ)
    (tells : Tells proper log (KeepsOrder phase before known) action) :
    Tells proper log (KeepsOrder phase before known) (Action.mapFault change action) := by
  refine (tells.mono ?_).mapFault
  rintro ended written ⟨order, inside, told⟩
  refine ⟨order, inside, ?_⟩
  cases ended with
  | ok value =>
      rintro _ ⟨⟩
      exact told value rfl
  | error fault => rintro _ ⟨⟩

theorem catching {action : EStateM φ σ α} {caught : φ → Bool} {handler : φ → EStateM φ σ α}
    (tells : Tells proper log (KeepsOrder phase before known) action)
    (handled : ∀ fault written,
      Tells proper log (KeepsOrder phase (before ++ written) known) (handler fault)) :
    Tells proper log (KeepsOrder phase before known) (Action.catching caught action handler) := by
  refine tells.catching ?_ ?_
  · intro _ _ told _
    exact told
  · intro fault written told
    exact (handled fault written).mono fun _ _ => told.trans

end KeepsOrder

end Fieldbus
