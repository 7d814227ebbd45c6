import Fieldbus.Proofs.Master.Scene
import Fieldbus.Proofs.Master.Timely

/-!
# The order of a configuration pass

Whatever the engine answers and however the master stood before, a configuration pass keeps to
one order: the task is ended first, each state is reached before what needs it, the slaves are
assigned before the image is mapped, the image is mapped before the mailboxes are read, and the
map of a slave is read only after its own dictionary was read to the end.  A pass that stops in a
phase has done nothing of a later one.
-/

namespace Fieldbus

open Fieldbus.Action History

namespace Discovery

variable {ε : Type} [Engine ε] {before : List Event}

/-- Reading an object asks for its description and then for its entries. -/
theorem tells_readObject (slave : Int) (item : Nat) (mapped : ImageMapped before) :
    Tells (fun _ => True) (Session.events (ε := ε))
      (KeepsOrder .discovering before fun _ now => ∃ description entries,
        now = before ++ [.objectDescription slave item (.ok description),
          .entryList slave item (.ok entries)])
      (readObject slave item) := by
  refine KeepsOrder.bind (fun description now =>
    now = before ++ [.objectDescription slave item (.ok description)]) ?_ ?_
  · apply Session.tells_ask
    exact Logged.tells_noted (.objectDescription slave item) _ rfl fun answer =>
      .asked mapped rfl fun _ _ => rfl
  intro description written described
  refine KeepsOrder.bind (fun entries now => now = before ++
    [.objectDescription slave item (.ok description), .entryList slave item (.ok entries)]) ?_ ?_
  · apply Session.tells_ask
    refine Logged.tells_noted (.entryList slave item) _ rfl fun answer =>
      .asked mapped.append rfl fun entries _ => ?_
    rw [described, List.append_assoc]
    rfl
  intro entries more listed
  refine KeepsOrder.after_silence ?_ ?_
  · exact (talks_warnAll _ _ : Session.Talks (fun _ => False) Session.anyFault _).tells
      fun impossible => impossible.elim
  intro _
  exact Tells.pure (.ok ⟨description, entries, listed⟩)

theorem tells_readObjectsFrom (slave : Int) (count item : Nat) (completed : List ObjectInfo)
    (mapped : ImageMapped before) :
    Tells (fun _ => True) (Session.events (ε := ε))
      (KeepsOrder .discovering before fun _ now =>
        ∃ walk, Walk slave count item walk ∧ now = before ++ walk)
      (readObjectsFrom slave count item completed) := by
  induction count generalizing item completed before with
  | zero => exact .pure (.ok ⟨[], .done item, by simp⟩)
  | succ count ih =>
      refine KeepsOrder.bind _ (KeepsOrder.mapFault _ (tells_readObject slave item mapped)) ?_
      rintro object written ⟨description, entries, described⟩
      refine KeepsOrder.mono (ih (item + 1) _ mapped.append) ?_
      rintro objects more ⟨walk, walks, same⟩
      refine ⟨.objectDescription slave item (.ok description) ::
        .entryList slave item (.ok entries) :: walk, .next walks, ?_⟩
      rw [same, described, List.append_assoc]
      rfl

theorem tells_readObjects (slave : Int) (mapped : ImageMapped before) :
    Tells (fun _ => True) (Session.events (ε := ε))
      (KeepsOrder .discovering before fun _ now => Walked slave now) (readObjects slave) := by
  refine KeepsOrder.bind (fun indices now =>
    now = before ++ [.objectList slave (.ok indices)]) ?_ ?_
  · apply Session.tells_ask
    exact Logged.tells_noted (.objectList slave) _ rfl fun answer =>
      .asked mapped rfl fun _ _ => rfl
  intro indices written listed
  refine KeepsOrder.mono (tells_readObjectsFrom slave indices.length 0 [] mapped.append) ?_
  rintro objects more ⟨walk, walks, same⟩
  refine ⟨indices, walk, walks, before, [], ?_⟩
  rw [same, listed, List.append_nil, List.append_assoc]
  rfl

end Discovery

/-- Resolving the map of a slave comes in time once its dictionary was walked. -/
theorem Layout.tells_resolve {ε : Type} [Engine ε] {before : List Event}
    (dictionary : Option ObjectDictionary) (slave : Int) (timeout : Number)
    (mapped : ImageMapped before) (walked : Walked slave before) :
    Tells (fun _ => True) (Session.events (ε := ε))
      (KeepsOrder .discovering before fun _ _ => True) (resolve dictionary slave timeout) := by
  refine (tells_uploads dictionary slave timeout).mono ?_
  intro ended written same
  refine ⟨.of_kind same ?_, ?_, fun _ _ => trivial⟩
  · rintro _ front ⟨entry, size, timeout, answer, rfl⟩ _
    exact ⟨mapped.append, walked.append⟩
  · intro event member
    obtain ⟨entry, size, timeout, answer, rfl⟩ := same event member
    rfl

namespace Master

variable {ε : Type} [Engine ε] {before : List Event}

section Phases

variable {proper : Master (Logged ε) → Prop} [AllowsSession (Preserve proper)]

section Preparation

/-- Reaching a state asks for it in time and then checks it. -/
theorem tells_reach {state : AlState} {phase : Phase}
    (belongs : (AlState.ofCode? state.code).bind AlState.phase? = some phase)
    (timely : ∀ answer, (Event.requestState state.code answer).Timely before) :
    Tells proper (events (ε := ε)) (KeepsOrder phase before fun _ now => Reached state now)
      (reach state) := by
  refine KeepsOrder.bind (fun _ now => Asked state now) ?_ ?_
  · apply tells_ask
    exact Logged.tells_noted (.requestState state.code) _ rfl fun answer =>
      .asked (timely answer) belongs fun _ _ =>
        List.mem_append_right _ (List.mem_singleton.mpr rfl)
  intro _ written asked
  refine KeepsOrder.bind (fun found now =>
    .checkState state.code stateTimeout (.ok found) ∈ now) ?_ ?_
  · apply tells_ask
    exact Logged.tells_noted (.checkState state.code stateTimeout) _ rfl fun answer =>
      .asked asked belongs fun _ _ => List.mem_append_right _ (List.mem_singleton.mpr rfl)
  intro found more checked
  split
  · exact Tells.throw .error
  · rename_i same
    rw [not_not.mp same] at checked
    exact Tells.pure (.ok checked)

def countSlaves : Action (Master ε) Int := do
  let count ← ask Engine.enumerate
  if count ≤ 0 then throw (.connection .noSlaves)
  report .info s!"Found {count} EtherCAT slave(s)"
  return count

theorem tells_countSlaves (initial : Reached .init before) :
    Tells proper (events (ε := ε)) (KeepsOrder .counting before fun _ now => Enumerated now)
      countSlaves := by
  refine KeepsOrder.bind (fun count now => .enumerate (.ok count) ∈ now) ?_ ?_
  · apply tells_ask
    exact Logged.tells_noted .enumerate _ rfl fun answer =>
      .asked initial rfl fun _ _ => List.mem_append_right _ (List.mem_singleton.mpr rfl)
  intro count written counted
  split
  · exact Tells.throw .error
  · rename_i positive
    refine KeepsOrder.after_silence (tells_report _ _ (by simp)) ?_
    intro _
    exact Tells.pure (.ok ⟨count, by omega, counted⟩)

end Preparation

/-- The assignment writes only, and comes in time before the image is mapped. -/
theorem ordered_assign (count : Nat) (reached : Reached .preOp before)
    (unmapped : ∀ answer, .mapImage answer ∉ before) :
    Tells proper (events (ε := ε)) (KeepsOrder .assigning before fun _ _ => True)
      (assign count) := by
  intro master isProper
  let settled (other : Master (Logged ε)) : Prop :=
    proper other ∧ other.config = master.config ∧ other.pdoConfig = master.pdoConfig
  have : AllowsSession (Preserve settled) := {
    session := fun other session known =>
      ⟨(AllowsSession.session other session : Preserve proper other _) known.1, known.2⟩ }
  have known : settled master := ⟨isProper, rfl, rfl⟩
  obtain ⟨written, wrote, kept, writes, _⟩ := tells_assign Binary64.zero
    (fun _ known => known.2.1) (fun _ known => known.2.2) count master known
  refine ⟨written, wrote, kept.1, .of_kind writes ?_, ?_, fun _ _ => trivial⟩
  · intro event front isDownload noMap
    cases event with
    | download slave entry complete data timeout answer =>
        refine ⟨reached.append, ?_⟩
        intro answer member
        rcases List.mem_append.mp member with early | late
        · exact unmapped answer early
        · exact absurd (noMap _ late) (by simp [Event.isDownload])
    | _ => cases isDownload
  · intro event member
    have isDownload := writes event member
    cases event with
    | download slave entry complete data timeout answer => rfl
    | _ => cases isDownload

/-- Forget the last pass and map the image. -/
def mapAnew : Action (Master ε) Unit := do
  modify fun master => { master with dictionary := ObjectDictionary.empty, maps := [] }
  let _ ← ask Engine.mapImage

theorem tells_mapAnew (forgets : ∀ master, proper master →
      proper { master with dictionary := ObjectDictionary.empty, maps := [] })
    (reached : Reached .preOp before) :
    Tells proper (events (ε := ε)) (KeepsOrder .mapping before fun _ now => ImageMapped now)
      mapAnew := by
  refine KeepsOrder.after_silence (Tells.modify (fun _ => rfl) forgets (by simp)) ?_
  intro _
  refine KeepsOrder.bind (fun _ now => ImageMapped now) ?_ ?_
  · apply tells_ask
    exact Logged.tells_noted .mapImage _ rfl fun answer => .asked reached rfl fun size _ =>
      ⟨size, List.mem_append_right _ (List.mem_singleton.mpr rfl)⟩
  intro _ more mapped
  exact Tells.pure (.ok mapped)

theorem tells_configureClocks (mapped : ImageMapped before) :
    Tells proper (events (ε := ε)) (KeepsOrder .synchronising before fun _ now => ImageMapped now)
      (ask Engine.configureClocks) := by
  apply tells_ask
  exact Logged.tells_noted .configureClocks _ rfl fun answer =>
    .asked mapped rfl fun _ _ => mapped.append

section Discovery

/-- Every slave with objects and no fault had its dictionary walked. -/
def Findings.AreWalked (findings : Findings) (now : List Event) : Prop :=
  ∀ slave ∈ findings.objects.map Prod.fst, findings.faults.has slave = false → Walked slave now

theorem Findings.AreWalked.append {findings : Findings} {more : List Event}
    (walked : findings.AreWalked before) : findings.AreWalked (before ++ more) := by
  intro slave listed faultless
  exact (walked slave listed faultless).append

theorem has_put {table : Table Int Fault} {slave other : Int} {fault : Fault}
    (missing : (table.put slave fault).has other = false) :
    other ≠ slave ∧ table.has other = false := by
  rw [Table.has, Table.get?_put] at missing
  split at missing
  · cases missing
  · rename_i different
    exact ⟨Ne.symm different, missing⟩

omit [Engine ε] in
theorem tells_recordFailure (what : String) {findings : Findings} (slave : Int) (fault : Fault)
    (walked : findings.AreWalked before) :
    Tells proper (events (ε := ε))
      (KeepsOrder .discovering before fun findings now => findings.AreWalked now)
      (recordFailure what findings slave fault) := by
  refine KeepsOrder.after_silence (tells_report _ _ (by simp)) ?_
  intro _
  apply Tells.pure
  apply KeepsOrder.ok
  intro other listed faultless
  obtain ⟨different, faultlessBefore⟩ := has_put faultless
  apply walked other _ faultlessBefore
  dsimp only at listed
  split at listed
  · exact listed
  · exact (Table.mem_keys_put.mp listed).resolve_left different

theorem tells_discoverFrom (count position : Nat) (findings : Findings)
    (mapped : ImageMapped before) (walked : findings.AreWalked before) :
    Tells proper (events (ε := ε)) (KeepsOrder .discovering before fun findings now =>
        findings.AreWalked now ∧ ImageMapped now)
      (discoverFrom count position findings) := by
  induction count generalizing position findings before with
  | zero => exact .pure (.ok ⟨walked, mapped⟩)
  | succ count ih =>
      refine KeepsOrder.bind (fun found now => found.AreWalked now) ?_ ?_
      · refine KeepsOrder.catching ?_ ?_
        · refine KeepsOrder.bind _
            (tells_inSession (Discovery.tells_readObjects position mapped)) ?_
          intro objects written walkedNow
          apply Tells.pure
          apply KeepsOrder.ok
          intro slave listed faultless
          rcases Table.mem_keys_put.mp listed with rfl | before
          · exact walkedNow
          · exact (walked slave before faultless).append
        · intro fault written
          exact tells_recordFailure _ position fault walked.append
      · intro found written walkedNow
        exact ih (position + 1) found mapped.append walkedNow

/-- Only maps of slaves without a fault are read, and faults are never forgotten. -/
theorem tells_resolveAll (dictionary : ObjectDictionary) (slaves : List Int)
    (maps : Table Int PdoMap) (faults : Table Int Fault) (mapped : ImageMapped before)
    (walked : ∀ slave ∈ slaves, faults.has slave = false → Walked slave before) :
    Tells proper (events (ε := ε)) (KeepsOrder .discovering before fun _ now => ImageMapped now)
      (resolveAll dictionary slaves maps faults) := by
  induction slaves generalizing maps faults before with
  | nil => exact .pure (.ok mapped)
  | cons slave rest ih =>
      have later : ∀ other ∈ rest, faults.has other = false → Walked other before :=
        fun other member => walked other (List.mem_cons_of_mem _ member)
      rw [resolveAll]
      split
      · exact ih maps faults mapped later
      · rename_i faultless
        refine KeepsOrder.bind (fun outcome now => ∀ other,
          outcome.2.has other = false → faults.has other = false) ?_ ?_
        · refine KeepsOrder.catching ?_ ?_
          · refine KeepsOrder.after_silence (tells_sdoTimeout (by simp)) ?_
            intro timeout
            refine KeepsOrder.bind _ (tells_inSession (Layout.tells_resolve (some dictionary) slave
              timeout mapped ?_)) ?_
            · exact walked slave List.mem_cons_self (by simpa using faultless)
            intro map more _
            exact Tells.pure (.ok fun _ same => same)
          · intro fault written
            refine KeepsOrder.after_silence (tells_report _ _ (by simp)) ?_
            intro _
            exact Tells.pure (.ok fun other missing => (has_put missing).2)
        · intro outcome written fewer
          apply ih _ _ mapped.append
          intro other member missing
          exact (later other member (fewer other missing)).append

theorem tells_discoverAll (keeps : ∀ master dictionary maps discoveryFaults, proper master →
      proper { master with dictionary, maps, discoveryFaults })
    (count : Nat) (mapped : ImageMapped before) :
    Tells proper (events (ε := ε)) (KeepsOrder .discovering before fun _ now => ImageMapped now)
      (discoverAll count) := by
  have nothing : Findings.AreWalked ⟨[], []⟩ before := by
    intro slave listed
    cases listed
  refine KeepsOrder.bind _ (tells_discoverFrom count 0 ⟨[], []⟩ mapped nothing) ?_
  rintro findings written ⟨walked, mappedNow⟩
  refine KeepsOrder.bind _ (tells_resolveAll _ _ _ _ mappedNow walked) ?_
  intro found more mappedLast
  exact Tells.modify (fun _ => rfl) (fun master => keeps master _ _ _) (.ok mappedLast)

end Discovery

theorem tells_validateSizes (slave : Int) (mapped : ImageMapped before) :
    Tells proper (events (ε := ε)) (KeepsOrder .validating before fun _ now => ImageMapped now)
      (validateSizes slave) := by
  have unmoved : Moves (Keep id) (map (ε := Logged ε) slave) := moves_map slave
  refine KeepsOrder.after_silence (Tells.of_unmoved unmoved (by simp)) ?_
  intro map
  refine KeepsOrder.after_silence (Tells.ofExcept (by simp)) ?_
  intro sizes
  refine KeepsOrder.bind (fun _ now => ImageMapped now) ?_ ?_
  · apply tells_ask
    exact Logged.tells_noted (.slaveInfo slave) _ rfl fun answer =>
      .asked mapped rfl fun _ _ => mapped.append
  intro info written mappedNow
  dsimp only
  split
  · exact Tells.pure (.ok mappedNow)
  · refine Tells.bind_get ?_
    intro master _
    split
    · exact Tells.throw .error
    · refine KeepsOrder.after_silence (tells_report _ _ (by simp)) ?_
      intro _
      exact Tells.pure (.ok mappedNow)

theorem tells_validateAll (slaves : List Int) (mapped : ImageMapped before) :
    Tells proper (events (ε := ε)) (KeepsOrder .validating before fun _ _ => True)
      (validateAll slaves) := by
  induction slaves generalizing before with
  | nil => exact .pure (.ok trivial)
  | cons slave rest ih =>
      refine KeepsOrder.bind _ (tells_validateSizes slave mapped) ?_
      intro _ written mappedNow
      exact ih mappedNow

omit [Engine ε] [AllowsSession (Preserve proper)] in
theorem tells_insistOnDiscovery :
    Tells proper (events (ε := ε)) (KeepsOrder .insisting before fun _ _ => True)
      insistOnDiscovery := by
  refine Tells.bind_get ?_
  intro master _
  cases master.discoveryFaults with
  | nil => exact Tells.pure (.ok trivial)
  | cons first rest =>
      dsimp only
      split
      · exact Tells.throw .error
      · exact Tells.pure (.ok trivial)

end Phases

section Passes

/-- No task runs, and the bus does not count as operational. -/
def Halted (master : Master ε) : Prop :=
  master.running = false ∧ master.inOp = false

instance : AllowsSession (Preserve (Halted (ε := ε))) where
  session _ _ known := known

/-- An action in a phase; its faults name the phase. -/
def inPhase {σ α : Type} (phase : Phase) (action : Action σ α) : EStateM (Phase × Fault) σ α :=
  Action.mapFault (Prod.mk phase) action

/-- What a configuration pass does once the task has ended. -/
def onceEnded : EStateM (Phase × Fault) (Master ε) Unit := do
  inPhase .initialising (reach .init)
  let count ← inPhase .counting countSlaves
  inPhase .readying (reach .preOp)
  inPhase .assigning (assign count.toNat)
  inPhase .mapping mapAnew
  inPhase .synchronising (ask Engine.configureClocks)
  inPhase .discovering (discoverAll count.toNat)
  let master ← get
  inPhase .validating (validateAll (master.maps.map Prod.fst))
  inPhase .insisting insistOnDiscovery

/-- A configuration pass whose faults name the phase in which it stops. -/
def phased : EStateM (Phase × Fault) (Master ε) Unit := do
  inPhase .ending stop
  inPhase .ending (modify fun master => { master with inOp := false })
  onceEnded

theorem mapFault_snd_inPhase {σ α : Type} (phase : Phase) (action : Action σ α) :
    Action.mapFault Prod.snd (inPhase phase action) = action := by
  funext state
  unfold inPhase Action.mapFault
  cases action state with
  | ok value after => rfl
  | error fault after => rfl

theorem countSlaves_bind {α : Type} (next : Int → Action (Master ε) α) :
    countSlaves >>= next = (do
      let count ← ask Engine.enumerate
      if count ≤ 0 then throw (.connection .noSlaves)
      report .info s!"Found {count} EtherCAT slave(s)"
      next count) := by
  rw [countSlaves, bind_assoc]
  congr 1
  funext count
  split
  · rfl
  · rw [bind_assoc]
    rfl

theorem find_eq_countSlaves :
    find (ε := ε) = (do
      reach .init
      let count ← countSlaves
      reach .preOp
      return count.toNat) := by
  simp only [find, welcome, countSlaves_bind]

theorem mapFault_snd_phased : Action.mapFault Prod.snd phased = configure (ε := ε) := by
  have seen : Action.mapFault Prod.snd (get : EStateM (Phase × Fault) (Master ε) (Master ε)) =
      get := rfl
  simp only [phased, onceEnded, mapFault_bind, mapFault_snd_inPhase, seen, configure,
    prepare_eq, find_eq_countSlaves, layOut, mapAnew, bind_assoc, pure_bind]

/-- The events of a pass from a phase on come in time, and a pass that stops in a phase has none of
a later one. -/
def Course (first : Phase) (before : List Event) (ended : Except (Phase × Fault) Unit)
    (written : List Event) : Prop :=
  Orderly before written ∧ ∀ phase fault, ended = .error (phase, fault) →
    first.rank ≤ phase.rank ∧
      ∀ event ∈ written, ∃ own, event.phase? = some own ∧ own.rank ≤ phase.rank

section Steps

omit [Engine ε]

variable {α : Type} {phase : Phase} {known : α → List Event → Prop}
  {action : Action (Master (Logged ε)) α}

/-- An action in a phase tells what it tells by itself; its faults name the phase. -/
theorem tells_inPhase (tells : Tells Halted events (KeepsOrder phase before known) action) :
    Tells Halted events (fun ended written => ∃ plain : Except Fault α,
      ended = plain.mapError (Prod.mk phase) ∧ KeepsOrder phase before known plain written)
        (inPhase phase action) := by
  apply Tells.mapFault
  exact tells.mono fun ended _ told => ⟨ended, rfl, told⟩

/-- A pass that stops in a phase has events of this phase only. -/
theorem Course.stopped {β : Type} {plain : Except Fault β} {known : β → List Event → Prop}
    {written : List Event} {stopped : Phase} {fault : Fault}
    (told : KeepsOrder phase before known plain written)
    (same : (.error (stopped, fault) : Except (Phase × Fault) β) =
      plain.mapError (Prod.mk phase)) : Course phase before (.error (stopped, fault)) written := by
  cases plain with
  | ok value => cases same
  | error cause =>
      cases same
      refine ⟨told.1, ?_⟩
      rintro _ _ ⟨⟩
      exact ⟨le_refl _, fun event member => ⟨phase, told.2.1 event member, le_refl _⟩⟩

/-- A pass goes on with a later phase where a phase succeeds. -/
theorem Course.bind {rest : α → EStateM (Phase × Fault) (Master (Logged ε)) Unit}
    (next : Phase) (tells : Tells Halted events (KeepsOrder phase before known) action)
    (ordered : phase.rank ≤ next.rank)
    (goes : ∀ value written, KeepsOrder phase before known (.ok value : Except Fault α) written →
      Tells Halted events (Course next (before ++ written)) (rest value)) :
    Tells Halted events (Course phase before) (inPhase phase action >>= rest) := by
  refine (tells_inPhase tells).bind ?_ ?_
  · rintro ⟨stopped, fault⟩ written ⟨plain, same, told⟩
    exact Course.stopped told same
  · rintro value written ⟨plain, same, told⟩
    have succeeded : plain = .ok value := by
      cases plain with
      | ok result =>
          cases same
          rfl
      | error cause => cases same
    rw [succeeded] at told
    refine (goes value written told).mono ?_
    rintro ended more ⟨order, stops⟩
    refine ⟨told.1.append order, ?_⟩
    intro stopped fault failed
    obtain ⟨after, inside⟩ := stops stopped fault failed
    refine ⟨ordered.trans after, ?_⟩
    intro event member
    rcases List.mem_append.mp member with early | late
    · exact ⟨phase, told.2.1 event early, ordered.trans after⟩
    · exact inside event late

/-- The last phase of a pass. -/
theorem Course.last {known : Unit → List Event → Prop} {action : Action (Master (Logged ε)) Unit}
    (tells : Tells Halted events (KeepsOrder phase before known) action) :
    Tells Halted events (Course phase before) (inPhase phase action) := by
  refine (tells_inPhase tells).mono ?_
  rintro (⟨stopped, fault⟩ | _) written ⟨plain, same, told⟩
  · exact Course.stopped told same
  · refine ⟨told.1, ?_⟩
    rintro _ _ ⟨⟩

end Steps

theorem tells_onceEnded (started : ∀ event ∈ before, event = .taskJoined) :
    Tells Halted (events (ε := ε)) (Course .initialising before) onceEnded := by
  refine Course.bind .counting (tells_reach rfl fun _ => Or.inl rfl) (by decide) ?_
  intro _ initialised initialising
  have initial : Reached .init (before ++ initialised) := initialising.2.2 () rfl
  refine Course.bind .readying (tells_countSlaves initial) (by decide) ?_
  intro count counted counting
  have enumerated := counting.2.2 count rfl
  refine Course.bind .assigning (tells_reach rfl fun _ => Or.inr ⟨rfl, enumerated⟩)
    (by decide) ?_
  intro _ readied readying
  have reached : Reached .preOp (before ++ initialised ++ counted ++ readied) :=
    readying.2.2 () rfl
  have unmapped : ∀ answer, .mapImage answer ∉ before ++ initialised ++ counted ++ readied := by
    intro answer member
    simp only [List.mem_append] at member
    rcases member with ((start | initial) | count) | ready
    · cases started _ start
    · cases initialising.2.1 _ initial
    · cases counting.2.1 _ count
    · cases readying.2.1 _ ready
  refine Course.bind .mapping (ordered_assign count.toNat reached unmapped)
    (by decide) ?_
  intro _ assigned _
  refine Course.bind .synchronising (tells_mapAnew (fun _ => id) reached.append) (by decide) ?_
  intro _ laidOut mapping
  refine Course.bind .discovering (tells_configureClocks (mapping.2.2 () rfl))
    (by decide) ?_
  intro _ synchronised synchronising
  refine Course.bind .validating
    (tells_discoverAll (fun _ _ _ _ => id) count.toNat (synchronising.2.2 () rfl)) (by decide) ?_
  intro _ discovered discovering
  refine Tells.bind_get ?_
  intro master _
  refine Course.bind .insisting (tells_validateAll _ (discovering.2.2 () rfl))
    (by decide) ?_
  intro _ validated _
  exact Course.last tells_insistOnDiscovery

/-- A pass that starts from any master goes on from one that is halted, and the log has the join
of a task that ran. -/
theorem exists_halted (master : Master (Logged ε)) :
    ∃ halted joined, phased master = onceEnded halted ∧ prepare master = find halted ∧
      Halted halted ∧ halted.events = master.events ++ joined ∧
      joined = if master.running then [.taskJoined] else [] := by
  obtain ⟨stopped, stopping, ended, _, _, _, engine⟩ := exists_stop master
  refine ⟨{ stopped with inOp := false }, _, ?_, ?_, ⟨ended, rfl⟩, ?_, rfl⟩
  · have ending : inPhase .ending stop master = .ok () stopped :=
      mapFault_eq_ok_iff.mpr stopping
    exact bind_of_ok ending
  · rw [prepare_eq, bind_of_ok stopping]
    rfl
  · show stopped.engine.events = _
    rw [engine]
    cases master.running with
    | true => rfl
    | false => exact (List.append_nil _).symm

theorem exists_phase_of_error {master after : Master ε} {fault : Fault}
    (failed : configure master = .error fault after) :
    ∃ phase, phased master = .error (phase, fault) after := by
  rw [← mapFault_snd_phased] at failed
  obtain ⟨⟨phase, cause⟩, stopped, rfl⟩ := mapFault_eq_error_iff.mp failed
  exact ⟨phase, stopped⟩

theorem final_phased (master : Master ε) : final (phased master) = final (configure master) := by
  rw [← mapFault_snd_phased, mapFault]
  cases phased master with
  | ok _ after => rfl
  | error fault after => rfl

end Passes

/-- A pass that starts from any master has its calls in order, and if it fails, it has stopped in a
phase. -/
theorem ordered_configure (master : Master (Logged ε)) :
    ∃ written, events (final (configure master)) = master.events ++ written ∧
      (master.running = true → written.head? = some .taskJoined) ∧
      Orderly [] written ∧
      ∀ fault after, configure master = .error fault after →
        after.isConnected = false ∧ after.running = false ∧
          ∃ phase, phased master = .error (phase, fault) after ∧
            ∀ event ∈ written, ∃ own, event.phase? = some own ∧ own.rank ≤ phase.rank := by
  obtain ⟨halted, joined, goesOn, _, isHalted, logged, joinedEq⟩ := exists_halted master
  have started : ∀ event ∈ joined, event = .taskJoined := by
    intro event member
    rw [joinedEq] at member
    split at member
    · exact List.mem_singleton.mp member
    · cases member
  have joinedOrder : Orderly [] joined := by
    rw [joinedEq]
    split
    · exact .singleton rfl
    · exact .nil
  obtain ⟨written, wrote, kept, order, stops⟩ := tells_onceEnded started halted isHalted
  rw [← goesOn] at wrote kept stops
  refine ⟨joined ++ written, ?_, ?_, joinedOrder.append order, ?_⟩
  · rw [← final_phased, wrote, logged, List.append_assoc]
  · intro runs
    rw [joinedEq, if_pos runs]
    rfl
  · intro fault after failed
    obtain ⟨phase, stopped⟩ := exists_phase_of_error failed
    rw [stopped] at kept stops
    obtain ⟨ended, left⟩ : Halted after := kept
    refine ⟨?_, ended, phase, stopped, ?_⟩
    · rw [isConnected, left, Bool.and_false]
    · obtain ⟨_, inside⟩ := stops phase fault rfl
      intro event member
      rcases List.mem_append.mp member with early | late
      · rw [started event early]
        exact ⟨.ending, rfl, Nat.zero_le _⟩
      · exact inside event late

end Master

namespace Scene

open Master

variable {ε : Type} [Engine ε]

end Scene

end Fieldbus
