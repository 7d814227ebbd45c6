import Fieldbus.Proofs.Engine.Progress
import Fieldbus.Proofs.Master.Courses
import Fieldbus.Proofs.Master.GoingOperational
import Fieldbus.Segment.Stack

/-!
# Readiness of the engine of a connected master

A master counts itself connected by two marks of its own, that the bus was opened and that it
became operational.  The engine knows by itself whether it has an open master, and the stack
whether that master was bound, enumerated its slaves and mapped their image.  The marks get out
of step with the engine in two ways only: opening a connected bus again fails at the adapter, or
the bus goes operational after an opening that was given up halfway.
-/

namespace Fieldbus

namespace Master

open Fieldbus.Action StackEngine

section Marks

variable {ε : Type}

instance : AllowsSession (Keep (Master.inOp (ε := ε))) where
  session _ _ := rfl

variable [Engine ε]

theorem inOp_configure (master : Master ε) : (final (configure master)).inOp = false := by
  obtain ⟨stopped, stopping, _⟩ := exists_stop master
  have staged : configure (ε := ε) = (do
      stop
      modify fun master => { master with inOp := false }
      let count ← find
      assign count
      layOut
      discoverAll count
      validateAll ((← get).maps.map Prod.fst)
      insistOnDiscovery) := by
    simp only [configure, prepare_eq, bind_assoc]
  have goesOn : Moves (Keep Master.inOp) (do
      let count ← find
      assign count
      layOut
      discoverAll count
      validateAll ((← get (m := Action (Master ε))).maps.map Prod.fst)
      insistOnDiscovery) := by
    refine Moves.bind moves_find ?_
    intro count
    refine Moves.bind (moves_assign _) ?_
    intro _
    refine Moves.bind (moves_layOut (fun _ => rfl) (moves_ask _)) ?_
    intro _
    refine Moves.bind (moves_discoverAll (fun _ _ _ _ => rfl) _) ?_
    intro _
    refine Moves.bind Moves.get ?_
    intro found
    refine Moves.bind (moves_validateAll _) ?_
    intro _
    exact moves_insistOnDiscovery
  rw [staged, bind_of_ok stopping, bind_of_ok (modify_apply _ _)]
  exact goesOn { stopped with inOp := false }

/-- Going operational connects an open master if it returns, and leaves the marks alone
otherwise. -/
theorem isConnected_goOperational (timeout : Number) (master : Master ε) :
    (final (goOperational timeout master)).isConnected =
      if (result? (goOperational timeout master)).isSome then master.opened
      else master.isConnected := by
  cases seeding : seed master with
  | error fault after =>
      obtain ⟨outcome, connectedEq, _⟩ := goOperational_of_seed_error timeout seeding
      rw [outcome]
      exact connectedEq
  | ok _ seeded =>
      cases waiting : await timeout seeded with
      | error fault after =>
          obtain ⟨outcome, connectedEq, _⟩ := goOperational_of_await_error seeding waiting
          rw [outcome]
          exact connectedEq
      | ok isReached waited =>
          cases isReached with
          | true =>
              obtain ⟨after, outcome, connectedEq, _⟩ := goOperational_of_reached seeding waiting
              rw [outcome]
              exact connectedEq
          | false =>
              obtain ⟨fault, after, outcome, connectedEq, _⟩ :=
                goOperational_of_waited_in_vain seeding waiting
              rw [outcome]
              exact connectedEq

theorem opened_opening (operational : Bool) :
    Moves (Keep Master.opened) (opening (ε := ε) operational) :=
  moves_opening opened_configure operational

end Marks

variable {σ : Type} [Stack σ]

instance : AllowsTalks (Along Master.engine (Advances (σ := σ))) where
  notices master _ := refl master.engine
  talks := along_inSession StackEngine.moves_request

instance : AllowsOperation (Along Master.engine (Advances (σ := σ))) where
  tells told master := by
    cases told with
    | taskStarted => exact ⟨rfl, refl _⟩
    | taskJoined => exact ⟨rfl, refl _⟩
    | wait seconds => exact ⟨rfl, refl _⟩
  zeroOutputs slave := moves_zeroOutputs_of (moves_request (.outputRange slave))
    fun _ _ => ⟨rfl, refl _⟩
  setValue slave _ _ := moves_setValue_of (moves_request (.outputRange slave))
    fun _ _ => ⟨rfl, refl _⟩
  lastWkc master _ := refl master.engine
  okCount master _ := refl master.engine
  errorCount master _ := refl master.engine
  handles master _ := refl master.engine
  running master _ := refl master.engine
  inOp master _ := refl master.engine

section Passes

variable {master after : Master (StackEngine (Tracked σ))} {count : Nat}

theorem enumerated_of_ready (readying : ready master = .ok count after) :
    after.engine.stack.progress.enumerated = true := by
  obtain ⟨_, prepared, preparing, rest⟩ := bind_eq_ok_iff.mp readying
  rw [prepare_eq] at preparing
  obtain ⟨_, stopped, _, preparing⟩ := bind_eq_ok_iff.mp preparing
  obtain ⟨_, cleared, _, finding⟩ := bind_eq_ok_iff.mp preparing
  obtain ⟨_, reached, _, counting⟩ := bind_eq_ok_iff.mp finding
  obtain ⟨reported, counted, asking, welcoming⟩ := bind_eq_ok_iff.mp counting
  obtain ⟨_, assigned, assigning, ended⟩ := bind_eq_ok_iff.mp rest
  cases ended
  have enumerated : counted.engine.stack.progress.enumerated = true := by
    obtain ⟨engine, enumerating, rfl⟩ := exists_of_ask_ok asking
    exact enumerated_of_enumerate enumerating
  have welcomed : Along Master.engine Advances counted prepared :=
    (moves_welcome reported).of_ok welcoming
  have advanced : Along Master.engine Advances prepared after :=
    (moves_assign _).of_ok assigning
  exact advanced.progress.enumerated (welcomed.progress.enumerated enumerated)

/-- What a configuration pass makes of an engine: it has the same open master, which has mapped
its image if the pass did or if it had before. -/
structure Configured (maps : Bool) (before after : StackEngine (Tracked σ)) : Prop where
  isOpen : after.isOpen = before.isOpen
  bound : after.stack.progress.bound = before.stack.progress.bound
  mapped : after.stack.progress.mapped = (before.stack.progress.mapped || maps)
  inOrder : InOrder after

omit [Stack σ] in
theorem Configured.isReady {maps : Bool} {before after : StackEngine (Tracked σ)}
    (configured : Configured maps before after) :
    after.isReady = (before.isOpen && before.stack.progress.bound &&
      (before.stack.progress.mapped || maps)) := by
  rw [isReady_of_inOrder configured.inOrder, configured.isOpen, configured.bound,
    configured.mapped]

omit [Stack σ] in
theorem Configured.advances {maps : Bool} {before between after : StackEngine (Tracked σ)}
    (configured : Configured maps before between) (advances : Advances between after) :
    Configured maps before after where
  isOpen := advances.isOpen.trans configured.isOpen
  bound := advances.progress.bound.trans configured.bound
  mapped := advances.progress.mapped.trans configured.mapped
  inOrder := advances.inOrder configured.inOrder

omit [Stack σ] in
theorem configured_of_advances {before after : StackEngine (Tracked σ)}
    (inOrder : InOrder before) (advances : Advances before after) :
    Configured false before after where
  isOpen := advances.isOpen
  bound := advances.progress.bound
  mapped := advances.progress.mapped.trans (Bool.or_false _).symm
  inOrder := advances.inOrder inOrder

theorem advances_furnish (count : Nat) :
    Moves (Along Master.engine (Advances (σ := σ))) (furnish count) :=
  moves_furnish (moves_discoverAll (fun master _ _ _ => refl master.engine) count)

theorem configured_configure (inOrder : InOrder master.engine) :
    Configured master.mapped?.isSome master.engine (final (configure master)).engine := by
  have readied : Along Master.engine Advances master (final (ready master)) := moves_ready master
  cases passCourse master with
  | unready unmapped readying outcome =>
      rw [readying] at readied
      rw [unmapped, outcome]
      exact configured_of_advances inOrder readied
  | unmapped unmapped readying mapping outcome =>
      rw [readying] at readied
      rw [unmapped, outcome]
      exact configured_of_advances inOrder
        (IsTrans.trans _ _ _ readied (advances_of_mapImage_error mapping))
  | @mapped count between size engine mapped readying mapping outcome =>
      have enumerated := enumerated_of_ready readying
      rw [readying] at readied
      obtain ⟨isOpenEq, progressEq⟩ := mapped_of_mapImage mapping
      have configured : Configured true master.engine engine := by
        refine ⟨isOpenEq.trans readied.isOpen, ?_, ?_, ?_⟩
        · rw [progressEq]
          exact readied.progress.bound
        · rw [progressEq, Bool.or_true]
        · intro _
          rw [progressEq]
          exact enumerated
      rw [mapped, outcome]
      exact configured.advances (advances_furnish count (between.blanked engine))

theorem configured_opening (inOrder : InOrder master.engine) (operational : Bool) :
    Configured master.mapped?.isSome master.engine (final (opening operational master)).engine := by
  have goesOn : Along Master.engine Advances (final (configure master))
      (final (opening operational master)) := moves_from_configured operational master
  exact (configured_configure inOrder).advances goesOn

/-- A pass that does not get as far as the image fails, and the bus is not operational. -/
theorem exists_opening_error (unmapped : master.mapped? = none) (operational : Bool) :
    ∃ fault after, opening operational master = .error fault after ∧ after.inOp = false := by
  have inOp := inOp_configure master
  cases passCourse master with
  | unready _ _ outcome =>
      rw [outcome] at inOp
      exact ⟨_, _, bind_of_error outcome, inOp⟩
  | unmapped _ _ _ outcome =>
      rw [outcome] at inOp
      exact ⟨_, _, bind_of_error outcome, inOp⟩
  | mapped mapped _ _ _ =>
      rw [unmapped] at mapped
      cases mapped

end Passes

/-- The engine of a master mapped its image only after it had enumerated its slaves. -/
def EngineInOrder (master : Master (StackEngine (Tracked σ))) : Prop :=
  InOrder master.engine

section Order

variable {α : Type} {action : Action (Master (StackEngine (Tracked σ))) α}

omit [Stack σ] in
theorem inOrder_of_advances (advances : Moves (Along Master.engine Advances) action) :
    Moves (Preserve EngineInOrder) action :=
  fun master inOrder => (advances master).inOrder inOrder

instance : AllowsOperation (Preserve (EngineInOrder (σ := σ))) where
  notices _ _ := id
  talks talks := inOrder_of_advances (AllowsTalks.talks talks)
  tells told := inOrder_of_advances (AllowsEngine.tells told)
  zeroOutputs slave := inOrder_of_advances (moves_zeroOutputs slave)
  setValue slave entry value := inOrder_of_advances (moves_setValue slave entry value)
  lastWkc _ _ := id
  okCount _ _ := id
  errorCount _ _ := id
  handles _ _ := id
  running _ _ := id
  inOp _ _ := id

instance : AllowsStates (Preserve (EngineInOrder (σ := σ))) where
  connects adapter := preserve_ask (inOrder_connect adapter)
  disconnects := preserve_ask inOrder_disconnect
  opened _ _ := id

theorem inOrder_perform (command : Command) :
    Moves (Preserve (EngineInOrder (σ := σ))) command.perform := by
  refine moves_perform ?_ command
  intro master inOrder
  exact (configured_configure inOrder).inOrder

end Order

/-- A master is in step with its engine if the engine is ready while the master is connected. -/
def InStep (master : Master (StackEngine (Tracked σ))) : Prop :=
  master.isConnected = true → master.engine.isReady = true

/-- Whether the bus counts as opened although the engine is not ready. -/
def isStranded (master : Master (StackEngine (Tracked σ))) : Bool :=
  master.opened && !master.engine.isReady

/-- Whether a command strands a bus that is not stranded.  Opening does if the stack refuses to be
bound again, and if it fails with a fault that is not one of the library before the image is laid
out. -/
def Command.strands : Command → Master (StackEngine (Tracked σ)) → Bool
  | openBus operational, master =>
      match ask (Engine.connect master.config.adapter) master with
      | .error _ _ => master.opened && master.engine.isRefused master.config.adapter
      | .ok _ bound =>
          match opening operational bound.onceBound with
          | .ok _ _ => false
          | .error fault _ => !fault.isLibrary && bound.onceBound.mapped?.isNone
  | _, _ => false

/-- Whether a command makes a master lose step with its engine: the stack of a connected master
refuses to be bound again, or a stranded bus goes operational. -/
def Command.losesStep : Command → Master (StackEngine (Tracked σ)) → Bool
  | openBus _, master => master.isConnected && master.engine.isRefused master.config.adapter
  | goOperational timeout, master =>
      master.isStranded && (result? (Master.goOperational timeout master)).isSome
  | _, _ => false

/-- What a command makes of the marks of a master and of the readiness of its engine. -/
structure Command.Marks (command : Command) (before after : Master (StackEngine (Tracked σ))) :
    Prop where
  stranded : before.isStranded = false → after.isStranded = command.strands before
  inStep : InStep before → (InStep after ↔ command.losesStep before = false)

section Steps

variable {master after : Master (StackEngine (Tracked σ))} {command : Command}

omit [Stack σ] in
theorem inStep_iff_of_eq (connectedEq : after.isConnected = master.isConnected)
    (readyEq : after.engine.isReady = master.engine.isReady) : InStep after ↔ InStep master := by
  rw [InStep, InStep, connectedEq, readyEq]

omit [Stack σ] in
theorem inStep_of_not_connected (unconnected : master.isConnected = false) : InStep master := by
  intro connected
  rw [unconnected] at connected
  cases connected

omit [Stack σ] in
theorem isStranded_of_eq (openedEq : after.opened = master.opened)
    (readyEq : after.engine.isReady = master.engine.isReady) :
    after.isStranded = master.isStranded := by
  rw [isStranded, isStranded, openedEq, readyEq]

theorem strands_of_modest (modest : command.isModest = true)
    (master : Master (StackEngine (Tracked σ))) :
    command.strands master = false ∧ command.losesStep master = false := by
  cases command with
  | openBus operational => cases modest
  | configure => cases modest
  | goOperational timeout => cases modest
  | close => cases modest
  | _ => exact ⟨rfl, rfl⟩

theorem marks_of_modest (inOrder : EngineInOrder master) (modest : command.isModest = true) :
    command.Marks master (final (command.perform master)) := by
  have advances : Along Master.engine Advances master (final (command.perform master)) :=
    moves_perform_of_modest modest master
  have connectedKept : Keep Master.isConnected master (final (command.perform master)) :=
    moves_perform_of_modest modest master
  have openedKept : Keep Master.opened master (final (command.perform master)) :=
    moves_perform_of_modest modest master
  have readyEq := advances.isReady_eq inOrder
  obtain ⟨strandsNot, losesNot⟩ := strands_of_modest modest master
  refine ⟨?_, ?_⟩
  · intro unstranded
    rw [strandsNot, ← unstranded]
    exact isStranded_of_eq openedKept readyEq
  · intro inStep
    exact iff_of_true ((inStep_iff_of_eq connectedKept readyEq).mpr inStep) losesNot

theorem marks_goOperational (inOrder : EngineInOrder master) (timeout : Number) :
    (Command.goOperational timeout).Marks master (final (goOperational timeout master)) := by
  have advances : Along Master.engine Advances master (final (goOperational timeout master)) :=
    moves_goOperational timeout master
  have openedKept : Keep Master.opened master (final (goOperational timeout master)) :=
    moves_goOperational timeout master
  have connectedEq := isConnected_goOperational timeout master
  have readyEq := advances.isReady_eq inOrder
  refine ⟨?_, ?_⟩
  · intro unstranded
    exact (isStranded_of_eq openedKept readyEq).trans unstranded
  · intro inStep
    rw [Command.losesStep]
    cases returns : (result? (goOperational timeout master)).isSome with
    | false =>
        rw [returns, if_neg (by decide)] at connectedEq
        exact iff_of_true ((inStep_iff_of_eq connectedEq readyEq).mpr inStep) (Bool.and_false _)
    | true =>
        rw [returns, if_pos rfl] at connectedEq
        rw [InStep, connectedEq, readyEq, isStranded]
        cases master.opened <;> cases master.engine.isReady <;> decide

theorem marks_configure (inOrder : EngineInOrder master) :
    Command.configure.Marks master (final (configure master)) := by
  have configured := configured_configure inOrder
  have openedKept : Keep Master.opened master (final (configure master)) :=
    opened_configure master
  refine ⟨?_, ?_⟩
  · intro unstranded
    show (final (configure master)).isStranded = false
    rw [isStranded] at unstranded ⊢
    rw [isReady_of_inOrder inOrder] at unstranded
    rw [configured.isReady, openedKept]
    revert unstranded
    cases master.opened <;> cases master.engine.isOpen <;>
      cases master.engine.stack.progress.bound <;>
      cases master.engine.stack.progress.mapped <;> simp
  · intro _
    refine iff_of_true (inStep_of_not_connected ?_) rfl
    rw [isConnected, inOp_configure, Bool.and_false]

theorem marks_close : Command.close.Marks master (final (close master)) := by
  have shut := (shut_close master).1
  refine ⟨?_, ?_⟩
  · intro _
    show (final (close master)).isStranded = false
    rw [isStranded, shut]
    rfl
  · intro _
    refine iff_of_true (inStep_of_not_connected ?_) rfl
    rw [isConnected, shut]
    rfl

/-- Opening that does not get as far as to bind the engine leaves the marks as they are, but the
engine is not ready any more if its stack refused. -/
theorem marks_openBus_of_unbound {operational : Bool} {fault : Fault}
    (binding : ask (Engine.connect master.config.adapter) master = .error fault after)
    (outcome : openBus operational master = .error fault after) :
    (Command.openBus operational).Marks master (final (openBus operational master)) := by
  have openedKept : Keep Master.opened master after := (moves_ask _).of_error binding
  have connectedKept : Keep Master.isConnected master after := (moves_ask _).of_error binding
  have engineEq := engine_ask (Engine.connect master.config.adapter) master
  rw [binding] at engineEq
  have strandsEq : (Command.openBus operational).strands master =
      (master.opened && master.engine.isRefused master.config.adapter) := by
    simp only [Command.strands, binding]
  rw [outcome]
  cases bindCourse master.config.adapter master.engine with
  | unchosen chosen connecting =>
      have same : after.engine = master.engine := by
        rw [show Engine.connect master.config.adapter master.engine = _ from connecting] at engineEq
        exact engineEq
      have readyEq : after.engine.isReady = master.engine.isReady := by rw [same]
      refine ⟨?_, ?_⟩
      · intro unstranded
        rw [strandsEq, chosen, Bool.and_false, ← unstranded]
        exact isStranded_of_eq openedKept readyEq
      · intro inStep
        refine iff_of_true ((inStep_iff_of_eq connectedKept readyEq).mpr inStep) ?_
        rw [Command.losesStep, chosen, Bool.and_false]
  | refused refused progress connecting =>
      have unready : after.engine.isReady = false := by
        rw [show Engine.connect master.config.adapter master.engine = _ from connecting] at engineEq
        rw [show after.engine = _ from engineEq, isReady, final, progress]
        exact Bool.and_false _
      refine ⟨?_, ?_⟩
      · intro _
        rw [strandsEq, refused, isStranded]
        show (after.opened && !after.engine.isReady) = _
        rw [openedKept, unready]
        rfl
      · intro _
        rw [Command.losesStep, refused, Bool.and_true, InStep]
        show (after.isConnected = true → after.engine.isReady = true) ↔ _
        rw [connectedKept, unready]
        cases master.isConnected <;> decide
  | bound _ _ _ connecting =>
      rw [ask_of_ok (show Engine.connect master.config.adapter master.engine = _ from connecting)]
        at binding
      cases binding

theorem bound_of_binding {bound : Master (StackEngine (Tracked σ))} {adapter : Payload}
    (binding : ask (Engine.connect adapter) master = .ok () bound) :
    master.engine.isRefused adapter = false ∧ bound.engine.isOpen = true ∧
      bound.engine.stack.progress = ⟨true, false, false⟩ := by
  obtain ⟨engine, connecting, rfl⟩ := exists_of_ask_ok binding
  have connected : connect adapter master.engine = .ok () engine := connecting
  cases bindCourse adapter master.engine with
  | unchosen _ outcome =>
      rw [outcome] at connected
      cases connected
  | refused _ _ outcome =>
      rw [outcome] at connected
      cases connected
  | bound accepted isOpen progress outcome =>
      rw [outcome] at connected
      cases connected
      exact ⟨accepted, isOpen, progress⟩

/-- Once the engine is bound, it is ready after opening exactly if the image was laid out, and the
bus does not become operational otherwise. -/
theorem isReady_opening {bound : Master (StackEngine (Tracked σ))} (operational : Bool)
    (isOpen : bound.engine.isOpen = true)
    (progress : bound.engine.stack.progress = ⟨true, false, false⟩) :
    (final (opening operational bound.onceBound)).engine.isReady =
      bound.onceBound.mapped?.isSome := by
  have inOrder : InOrder bound.onceBound.engine := by
    intro mapped
    rw [show bound.onceBound.engine.stack.progress = _ from progress] at mapped
    cases mapped
  rw [(configured_opening inOrder operational).isReady]
  show (bound.engine.isOpen && bound.engine.stack.progress.bound &&
    (bound.engine.stack.progress.mapped || bound.onceBound.mapped?.isSome)) = _
  rw [isOpen, progress, Bool.true_and, Bool.true_and, Bool.false_or]

theorem marks_openBus (operational : Bool) :
    (Command.openBus operational).Marks master (final (openBus operational master)) := by
  cases openCourse operational master with
  | unbound binding outcome => exact marks_openBus_of_unbound binding outcome
  | @kept bound binding uncaught outcome =>
      obtain ⟨accepted, isOpen, progress⟩ := bound_of_binding binding
      have readyEq := isReady_opening operational isOpen progress
      have opened : (final (opening operational bound.onceBound)).opened = true :=
        opened_opening operational bound.onceBound
      have losesNot : (Command.openBus operational).losesStep master = false := by
        rw [Command.losesStep, accepted, Bool.and_false]
      rw [outcome]
      cases mapped : bound.onceBound.mapped? with
      | some engine =>
          rw [mapped] at readyEq
          refine ⟨?_, fun _ => iff_of_true (fun _ => readyEq) losesNot⟩
          intro _
          rw [isStranded, readyEq, Command.strands]
          simp only [binding, mapped]
          split
          · exact Bool.and_false _
          · rw [Option.isNone_some, Bool.and_false]
            exact Bool.and_false _
      | none =>
          obtain ⟨fault, after, failing, inOp⟩ := exists_opening_error mapped operational
          have plain := uncaught fault after failing
          rw [mapped, failing] at readyEq
          rw [failing] at opened ⊢
          refine ⟨?_, fun _ => iff_of_true (inStep_of_not_connected ?_) losesNot⟩
          · intro _
            rw [isStranded, readyEq, opened, Command.strands]
            simp only [binding, failing, mapped, plain]
            rfl
          · show (after.opened && after.inOp) = false
            rw [inOp, Bool.and_false]
  | @closed bound between fault binding failing caught opened outcome =>
      have accepted := (bound_of_binding binding).1
      have shut := (shut_close between).1
      rw [outcome]
      refine ⟨?_, ?_⟩
      · intro _
        rw [isStranded, shut]
        simp only [Command.strands, binding, failing, caught, Bool.not_true, Bool.false_and]
      · intro _
        refine iff_of_true (inStep_of_not_connected ?_) ?_
        · rw [isConnected, shut, Bool.false_and]
        · rw [Command.losesStep, accepted, Bool.and_false]

theorem marks_perform (inOrder : EngineInOrder master) (command : Command) :
    command.Marks master (final (command.perform master)) := by
  cases command with
  | openBus operational => exact marks_openBus operational
  | configure => exact marks_configure inOrder
  | goOperational timeout => exact marks_goOperational inOrder timeout
  | close => exact marks_close
  | _ => exact marks_of_modest inOrder rfl

end Steps

section Runs

variable {ε : Type} [Engine ε]

/-- The master after some of the commands of a run. -/
def Command.performFirst (count : Nat) (commands : List Command) (master : Master ε) : Master ε :=
  performAll (commands.take count) master

theorem performFirst_succ {commands : List Command} {count : Nat} {command : Command}
    (found : commands[count]? = some command) (master : Master ε) :
    Command.performFirst (count + 1) commands master =
      final (command.perform (Command.performFirst count commands master)) := by
  induction commands generalizing count master with
  | nil => cases found
  | cons first rest ih =>
      cases count with
      | zero =>
          cases found
          rfl
      | succ count => exact ih found (final (first.perform master))

theorem performFirst_of_length_le {commands : List Command} {count : Nat}
    (ended : commands[count]? = none) (master : Master ε) :
    Command.performFirst (count + 1) commands master =
      Command.performFirst count commands master := by
  have lengthLe := List.getElem?_eq_none_iff.mp ended
  rw [Command.performFirst, Command.performFirst, List.take_of_length_le lengthLe,
    List.take_of_length_le (Nat.le_succ_of_le lengthLe)]

theorem inOrder_performAll {start : Master (StackEngine (Tracked σ))}
    (inOrder : EngineInOrder start) (commands : List Command) :
    EngineInOrder (Command.performAll commands start) := by
  induction commands generalizing start with
  | nil => exact inOrder
  | cons command rest ih => exact ih (inOrder_perform command start inOrder)

/-- A master of a tracked stack that has not been opened. -/
def fresh (config : BusConfig) (pdoConfig : Option PdoConfig) (stack : σ) :
    Master (StackEngine (Tracked σ)) :=
  idle config pdoConfig (StackEngine.ofStack (Tracked.ofStack stack))

/-- A master is in step with its engine all along a run exactly if no command of the run makes it
lose step.  A bus that is not stranded is stranded exactly by the openings that strand it. -/
theorem inStep_along_iff (config : BusConfig) (pdoConfig : Option PdoConfig) (stack : σ)
    (commands : List Command) :
    let run (count : Nat) := Command.performFirst count commands (fresh config pdoConfig stack)
    ((∀ count, InStep (run count)) ↔
      ∀ count (command : Command), commands[count]? = some command →
        command.losesStep (run count) = false) ∧
    ∀ count (command : Command), commands[count]? = some command →
      (run count).isStranded = false →
      (run (count + 1)).isStranded = command.strands (run count) := by
  intro run
  have marks (count : Nat) (command : Command) (found : commands[count]? = some command) :
      command.Marks (run count) (run (count + 1)) := by
    have inOrder : EngineInOrder (fresh config pdoConfig stack) := fun mapped => by cases mapped
    have stepEq : run (count + 1) = final (command.perform (run count)) := performFirst_succ found _
    rw [stepEq]
    exact marks_perform (inOrder_performAll inOrder _) command
  refine ⟨⟨?_, ?_⟩, fun count command found => (marks count command found).stranded⟩
  · intro inStep count command found
    exact ((marks count command found).inStep (inStep count)).mp (inStep (count + 1))
  · intro keeps count
    induction count with
    | zero => exact inStep_of_not_connected rfl
    | succ count ih =>
        cases found : commands[count]? with
        | none =>
            have same : run (count + 1) = run count := performFirst_of_length_le found _
            rw [same]
            exact ih
        | some command =>
            exact ((marks count command found).inStep ih).mpr (keeps count command found)

/-- A master of one slave whose file assigns an index that has no place in two bytes. -/
def strayMaster : Master (StackEngine (Tracked Segment)) :=
  fresh BusConfig.defaults (some ⟨some ⟨[0x10000], []⟩, []⟩)
    { Segment.bare with slaves := [SimulatedSlave.plain] }

/-- Opening strands that bus, and then going operational connects it without an image. -/
theorem inStep_along_iff_strayMaster :
    (final (openBus false strayMaster)).isStranded = true ∧
      ∃ count, ¬ InStep (Command.performFirst count
        [.openBus false, .goOperational operationalTimeout] strayMaster) := by
  obtain ⟨alongIff, strandedIff⟩ := inStep_along_iff BusConfig.defaults
    (some ⟨some ⟨[0x10000], []⟩, []⟩) { Segment.bare with slaves := [SimulatedSlave.plain] }
    [.openBus false, .goOperational operationalTimeout]
  refine ⟨?_, ?_⟩
  · refine (strandedIff 0 (.openBus false) rfl rfl).trans ?_
    decide +kernel
  · refine not_forall.mp fun inStep => ?_
    have keeps := alongIff.mp inStep 1 (.goOperational operationalTimeout) rfl
    revert keeps
    decide +kernel

end Runs

end Master

end Fieldbus
