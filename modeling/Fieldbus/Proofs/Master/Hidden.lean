import Fieldbus.Proofs.Master.Twins

/-!
# Discovery with a hidden slave

Discovery goes by every slave in turn.  Where it comes to the hidden slave nothing that is
shown changes and nothing fails, whatever the slave holds; everywhere else two runs do the
same.  So one of two runs may find the slave in its dictionary, or have a map of it, where the
other does not.
-/

namespace Fieldbus

namespace Master

open Fieldbus.Action

variable {slave other size : Nat} {right : Master MemoryEngine}

section Hidden

theorem contained_inSession {proper : Master MemoryEngine → Prop} {faults : Fault → Prop}
    {α : Type} {values : α → Prop} {action : Action (Session MemoryEngine) α}
    (contained : ∀ view count,
      Contained (Session.Shows slave size view count) faults values action)
    (twins : ∀ master, proper master → Session.Twins slave size master.session right.session)
    (kept : ∀ master session, proper master → Session.Twins slave size session right.session →
      proper { master with session }) :
    Contained proper faults values (inSession action) := by
  apply Contained.within
  intro master known
  obtain ⟨count, shows⟩ := (twins master known).shows
  refine ⟨Session.Shows slave size _ count, shows, contained _ count, ?_⟩
  intro session shown
  exact kept master session known ((twins master known).of_shows shown)

theorem contained_session {faults : Fault → Prop} {α : Type} {values : α → Prop}
    {action : Action (Session MemoryEngine) α}
    (contained : ∀ view count,
      Contained (Session.Shows slave size view count) faults values action) :
    Contained (Twins slave size · right) faults values (inSession action) :=
  contained_inSession contained (fun _ twins => twins.engines)
    fun _ _ twins engines => twins.withSessions engines

theorem contained_report {faults : Fault → Prop} (level : Level) (text : Text) :
    Contained (Twins slave size · right) faults (fun _ => True) (report level text) := by
  apply contained_session
  intro view count session shows
  exact .ok trivial shows

theorem contained_sdoTimeout {faults : Fault → Prop} :
    Contained (Twins slave size · right) faults (fun _ => True) sdoTimeout := by
  intro master twins
  obtain ⟨seconds, numeric⟩ := twins.firstSound.lenient.timeout
  have outcome : sdoTimeout master = .ok (.real seconds) master := by
    rw [sdoTimeout, bind_of_ok (get_apply master), numeric]
    rfl
  rw [outcome]
  exact .ok trivial twins

/-- What is contained for the first of two twins is so for the second. -/
theorem contained_mirrored {left : Master MemoryEngine} {faults : Fault → Prop} {α : Type}
    {values : α → Prop} {action : Action (Master MemoryEngine) α}
    (contained : Contained (Twins slave size · left) faults values action) :
    Contained (Twins slave size left) faults values action :=
  contained.congr fun _ => ⟨Twins.symm, Twins.symm⟩

/-- What is contained where a slave is hidden is so in all sound masters. -/
theorem contained_of_hidden {faults : Fault → Prop} {α : Type} {values : α → Prop}
    {action : Action (Master MemoryEngine) α} (inside : slave < size)
    (contained : ∀ right, Contained (Twins slave size · right) faults values action) :
    Contained (Sound size) faults values action := by
  intro master sound
  have twins : Twins slave size master master := ⟨rfl, inside, sound, sound⟩
  exact (contained master master twins).mono fun _ related => related.firstSound

/-- What couples over twins is contained in sound masters. -/
theorem contained_of_couples {α : Type} {relation : α → α → Prop}
    {action : Action (Master MemoryEngine) α} (inside : slave < size)
    (couples : Couples (Twins slave size) relation action action) :
    Contained (Sound size) (fun _ => True) (fun value => ∃ other, relation value other)
      action := by
  intro master sound
  have agree := couples master master ⟨rfl, inside, sound, sound⟩
  generalize action master = outcome at agree
  cases agree with
  | ok valid twins => exact .ok ⟨_, valid⟩ twins.firstSound
  | error fault twins => exact .error trivial twins.firstSound

def Positions (size : Nat) (keys : List Int) : Prop :=
  ∀ key ∈ keys, ∃ position : Nat, position < size ∧ key = position

theorem Positions.nil : Positions size [] := by
  intro key member
  cases member

/-- A table gets no other keys than that of a slave. -/
theorem Positions.of_without {α : Type} {before after : Table Int α}
    (known : Positions size (before.map Prod.fst)) (inside : slave < size)
    (same : after.without (slave : Int) = before.without (slave : Int)) :
    Positions size (after.map Prod.fst) := by
  intro key member
  by_cases hidden : key = slave
  · exact ⟨slave, inside, hidden⟩
  · have kept : key ∈ (after.map Prod.fst).filter (· ≠ (slave : Int)) :=
      List.mem_filter.mpr ⟨member, by simpa using hidden⟩
    rw [← Table.keys_without, same, Table.keys_without] at kept
    exact known key (List.mem_filter.mp kept).1

end Hidden

section Dictionaries

/-- Findings that agree but for one slave. -/
structure Findings.Alike (slave : Nat) (first second : Findings) : Prop where
  objects : first.objects.without (slave : Int) = second.objects.without (slave : Int)
  faults : first.faults.without (slave : Int) = second.faults.without (slave : Int)

variable {first second findings : Findings}

theorem couples_recordFailure (what : String) (different : (other : Int) ≠ slave)
    (alike : first.Alike slave second) (fault : Fault) :
    Couples (Twins slave size) (Findings.Alike slave) (recordFailure what first other fault)
      (recordFailure what second other fault) := by
  refine (couples_report _ _ _).bind ?_
  intro _ _ _
  apply Couples.pure
  constructor
  · dsimp only
    split
    · exact alike.objects
    · rw [Table.without_put_of_ne different, Table.without_put_of_ne different, alike.objects]
  · rw [Table.without_put_of_ne different, Table.without_put_of_ne different, alike.faults]

def discovery {ε : Type} [Engine ε] (position : Int) (findings : Findings) :
    Action (Master ε) Findings :=
  Action.catching Fault.isCommunication
    (do
      let objects ← inSession (Discovery.readObjects position)
      return { findings with objects := findings.objects.put position objects })
    (recordFailure "object dictionary" findings position)

theorem discoverFrom_succ {ε : Type} [Engine ε] (count position : Nat) (findings : Findings) :
    discoverFrom (ε := ε) (count + 1) position findings =
      discovery position findings >>= discoverFrom count (position + 1) :=
  rfl

/-- The discovery of the hidden slave does not fail and is not seen. -/
theorem contained_discovery (findings : Findings) :
    Contained (Twins slave size · right) never (fun found : Findings => found.Alike slave findings)
      (discovery slave findings) := by
  apply Contained.catching
  · refine (contained_session fun _ _ => Discovery.contained_readObjects).bind ?_
    intro objects _
    exact Contained.pure ⟨Table.without_put_self, rfl⟩
  · intro fault
    refine (contained_report _ _).bind ?_
    intro _ _
    apply Contained.pure
    constructor
    · dsimp only
      split
      · rfl
      · exact Table.without_put_self
    · exact Table.without_put_self

theorem couples_discovery (different : other ≠ slave) (alike : first.Alike slave second) :
    Couples (Twins slave size) (Findings.Alike slave) (discovery other first)
      (discovery other second) := by
  have apart : (other : Int) ≠ slave := by omega
  apply Couples.catching
  · refine (couples_inSession
      (Session.couples_of_reads different (Discovery.talks_readObjects _))).bind ?_
    rintro objects _ rfl
    apply Couples.pure
    refine ⟨?_, alike.faults⟩
    rw [Table.without_put_of_ne apart, Table.without_put_of_ne apart, alike.objects]
  · intro fault
    exact couples_recordFailure _ apart alike fault

theorem couples_discoverFrom (count position : Nat) (alike : first.Alike slave second) :
    Couples (Twins slave size) (Findings.Alike slave) (discoverFrom count position first)
      (discoverFrom count position second) := by
  induction count generalizing position first second with
  | zero => exact Couples.pure alike
  | succ count ih =>
      rw [discoverFrom_succ, discoverFrom_succ]
      by_cases hidden : position = slave
      · subst hidden
        refine Couples.left (fun _ => contained_discovery first) ?_
        intro firstFound firstAlike
        refine Couples.right (fun _ => contained_mirrored (contained_discovery second)) ?_
        intro secondFound secondAlike
        apply ih
        exact ⟨firstAlike.objects.trans (alike.objects.trans secondAlike.objects.symm),
          firstAlike.faults.trans (alike.faults.trans secondAlike.faults.symm)⟩
      · refine (couples_discovery hidden alike).bind ?_
        intro firstFound secondFound found
        exact ih _ found

theorem contained_discoverFrom {count position : Nat} (bounded : position + count ≤ size)
    (known : Positions size (findings.objects.map Prod.fst)) :
    Contained (Sound size) never (fun found => Positions size (found.objects.map Prod.fst))
      (discoverFrom count position findings) := by
  induction count generalizing position findings with
  | zero => exact Contained.pure known
  | succ count ih =>
      have inside : position < size := by omega
      rw [discoverFrom_succ]
      refine (contained_of_hidden inside fun _ => contained_discovery findings).bind ?_
      intro found alike
      exact ih (by omega) (known.of_without inside alike.objects)

end Dictionaries

section Resolution

/-- Lists of positions that agree but for one slave, which either may hold anywhere. -/
inductive Skips (slave : Nat) : List Int → List Int → Prop
  | nil : Skips slave [] []
  | left {lefts rights : List Int} : Skips slave lefts rights →
      Skips slave ((slave : Int) :: lefts) rights
  | right {lefts rights : List Int} : Skips slave lefts rights →
      Skips slave lefts ((slave : Int) :: rights)
  | both {other : Nat} {lefts rights : List Int} : other ≠ slave → Skips slave lefts rights →
      Skips slave ((other : Int) :: lefts) ((other : Int) :: rights)

theorem skips_of_filter_eq {lefts rights : List Int}
    (same : lefts.filter (· ≠ (slave : Int)) = rights.filter (· ≠ (slave : Int)))
    (listed : Positions size lefts) : Skips slave lefts rights := by
  induction lefts generalizing rights with
  | nil =>
      induction rights with
      | nil => exact .nil
      | cons key rights ih =>
          by_cases hidden : key = slave
          · subst hidden
            exact .right (ih (by simpa using same))
          · simp [hidden] at same
  | cons key lefts ih =>
      have later : Positions size lefts := fun key member =>
        listed key (List.mem_cons_of_mem _ member)
      by_cases hidden : key = slave
      · subst hidden
        exact .left (ih (by simpa using same) later)
      · obtain ⟨other, _, rfl⟩ := listed key List.mem_cons_self
        have different : other ≠ slave := fun equal => hidden (congrArg Nat.cast equal)
        induction rights with
        | nil => simp [hidden] at same
        | cons next rights more =>
            by_cases skipped : next = slave
            · subst skipped
              exact .right (more (by simpa using same))
            · simp only [ne_eq, decide_not, List.filter_cons, hidden, skipped, decide_false,
                Bool.not_false, if_true, List.cons.injEq] at same
              obtain ⟨rfl, rest⟩ := same
              exact .both different (ih (by simpa using rest) later)

/-- Maps and faults that agree but for one slave. -/
def Agreeing (slave : Nat) (first second : Table Int PdoMap × Table Int Fault) : Prop :=
  first.1.without (slave : Int) = second.1.without (slave : Int) ∧
    first.2.without (slave : Int) = second.2.without (slave : Int)

def resolution {ε : Type} [Engine ε] (dictionary : ObjectDictionary) (position : Int)
    (maps : Table Int PdoMap) (faults : Table Int Fault) :
    Action (Master ε) (Table Int PdoMap × Table Int Fault) :=
  Action.catching Fault.isCommunication
    (do
      let timeout ← sdoTimeout
      let map ← inSession (Layout.resolve (some dictionary) position timeout)
      return (maps.put position map, faults))
    (fun fault => do
      report .error
        (s!"Slave {position}: PDO assignment discovery failed: " ++ fault.message)
      return (maps, faults.put position fault))

theorem resolveAll_cons {ε : Type} [Engine ε] (dictionary : ObjectDictionary) (position : Int)
    (rest : List Int) (maps : Table Int PdoMap) (faults : Table Int Fault) :
    resolveAll (ε := ε) dictionary (position :: rest) maps faults =
      if faults.has position then resolveAll dictionary rest maps faults
      else resolution dictionary position maps faults >>= fun outcome =>
        resolveAll dictionary rest outcome.1 outcome.2 :=
  rfl

/-- The resolution of the map of the hidden slave does not fail and is not seen. -/
theorem contained_resolution (dictionary : ObjectDictionary) (maps : Table Int PdoMap)
    (faults : Table Int Fault) :
    Contained (Twins slave size · right) never (Agreeing slave · (maps, faults))
      (resolution dictionary slave maps faults) := by
  apply Contained.catching
  · refine contained_sdoTimeout.bind ?_
    intro timeout _
    refine (contained_session fun _ _ => Layout.contained_resolve _ timeout).bind ?_
    intro map _
    exact Contained.pure ⟨Table.without_put_self, rfl⟩
  · intro fault
    refine (contained_report _ _).bind ?_
    intro _ _
    exact Contained.pure ⟨rfl, Table.without_put_self⟩

variable {first second : ObjectDictionary} {maps others : Table Int PdoMap}
  {faults causes : Table Int Fault}

theorem couples_resolution
    (dictionaries : first.slaves.without (slave : Int) = second.slaves.without (slave : Int))
    (different : other ≠ slave) (agreeing : Agreeing slave (maps, faults) (others, causes)) :
    Couples (Twins slave size) (Agreeing slave) (resolution first other maps faults)
      (resolution second other others causes) := by
  have apart : (other : Int) ≠ slave := by omega
  apply Couples.catching
  · refine couples_sdoTimeout.bind ?_
    rintro timeout _ rfl
    rw [Layout.resolve_congr (Table.get?_eq_of_without apart dictionaries)]
    have talks := (Layout.talks_resolve (ε := MemoryEngine) (some second) other timeout).mono
      Engine.Uploads.reads
    refine (couples_inSession (Session.couples_of_reads different talks)).bind ?_
    rintro map _ rfl
    apply Couples.pure
    refine ⟨?_, agreeing.2⟩
    rw [Table.without_put_of_ne apart, Table.without_put_of_ne apart, agreeing.1]
  · intro fault
    refine (couples_report _ _ _).bind ?_
    intro _ _ _
    apply Couples.pure
    refine ⟨agreeing.1, ?_⟩
    rw [Table.without_put_of_ne apart, Table.without_put_of_ne apart, agreeing.2]

theorem couples_resolveAll
    (dictionaries : first.slaves.without (slave : Int) = second.slaves.without (slave : Int))
    {lefts rights : List Int} (skips : Skips slave lefts rights)
    (agreeing : Agreeing slave (maps, faults) (others, causes)) :
    Couples (Twins slave size) (Agreeing slave) (resolveAll first lefts maps faults)
      (resolveAll second rights others causes) := by
  induction skips generalizing maps others faults causes with
  | nil => exact Couples.pure agreeing
  | left _ ih =>
      rw [resolveAll_cons]
      split
      · exact ih agreeing
      · refine Couples.left (fun _ => contained_resolution first maps faults) ?_
        intro found alike
        exact ih ⟨alike.1.trans agreeing.1, alike.2.trans agreeing.2⟩
  | right _ ih =>
      rw [resolveAll_cons]
      split
      · exact ih agreeing
      · refine Couples.right
          (fun _ => contained_mirrored (contained_resolution second others causes)) ?_
        intro found alike
        exact ih ⟨agreeing.1.trans alike.1.symm, agreeing.2.trans alike.2.symm⟩
  | @both other _ _ different _ ih =>
      have apart : (other : Int) ≠ slave := by omega
      have knownEq : faults.has (other : Int) = causes.has (other : Int) := by
        rw [Table.has, Table.has, Table.get?_eq_of_without apart agreeing.2]
      rw [resolveAll_cons, resolveAll_cons, knownEq]
      split
      · exact ih agreeing
      · refine (couples_resolution dictionaries different agreeing).bind ?_
        intro firstFound secondFound found
        exact ih found

theorem contained_resolveAll {dictionary : ObjectDictionary} {positions : List Int}
    (listed : Positions size positions) (known : Positions size (maps.map Prod.fst)) :
    Contained (Sound size) never (fun found => Positions size (found.1.map Prod.fst))
      (resolveAll dictionary positions maps faults) := by
  induction positions generalizing maps faults with
  | nil => exact Contained.pure known
  | cons key rest ih =>
      have later : Positions size rest := fun key member =>
        listed key (List.mem_cons_of_mem _ member)
      obtain ⟨position, inside, rfl⟩ := listed key List.mem_cons_self
      rw [resolveAll_cons]
      split
      · exact ih later known
      · refine (contained_of_hidden inside fun _ =>
          contained_resolution dictionary maps faults).bind ?_
        intro found agreeing
        exact ih later (known.of_without inside agreeing.1)

end Resolution

section Caches

theorem contained_discoverSlaves :
    Contained (Sound size) never (fun found => Positions size (found.objects.map Prod.fst))
      (discoverFrom size 0 ⟨[], []⟩) :=
  contained_discoverFrom (Nat.le_of_eq (Nat.zero_add size)) Positions.nil

/-- Whichever slaves fail, discovery comes to its end. -/
theorem contained_discoverAll :
    Contained (Sound size) never (fun _ => True) (discoverAll size) := by
  refine contained_discoverSlaves.bind ?_
  intro findings listed
  refine (contained_resolveAll listed Positions.nil).bind ?_
  intro found _ master sound
  exact .ok trivial ⟨sound.segment, sound.lenient⟩

/-- The maps that discovery keeps are gapless, and are those of slaves. -/
theorem maps_of_discoverAll {master after : Master MemoryEngine} (sound : Sound size master)
    (discovered : discoverAll size master = .ok () after) :
    AllGapless after.maps ∧ Positions size (after.maps.map Prod.fst) := by
  obtain ⟨findings, between, found, rest⟩ := bind_eq_ok_iff.mp discovered
  obtain ⟨⟨maps, faults⟩, resolvedAfter, resolved, kept⟩ := bind_eq_ok_iff.mp rest
  cases kept
  obtain ⟨listed, betweenSound⟩ := contained_discoverSlaves.of_ok sound found
  have positions := (contained_resolveAll listed Positions.nil).of_ok betweenSound resolved
  exact ⟨resolveAll_gapless allGapless_nil resolved, positions.1⟩

theorem couples_discoverAll :
    Couples (Twins slave size) Eq (discoverAll size) (discoverAll size) := by
  refine Couples.bind_of_ok (couples_discoverFrom size 0 ⟨rfl, rfl⟩) ?_
  intro left found leftAfter _ other rightAfter before discovered _ alike twins
  have listed := (contained_discoverSlaves.of_ok before.firstSound discovered).1
  have skips : Skips slave (found.objects.map Prod.fst) (other.objects.map Prod.fst) := by
    apply skips_of_filter_eq _ listed
    rw [← Table.keys_without, ← Table.keys_without, alike.objects]
  have resolved : Couples (Twins slave size) (Agreeing slave)
      (resolveAll ⟨found.objects⟩ (found.objects.map Prod.fst) [] found.faults)
      (resolveAll ⟨other.objects⟩ (other.objects.map Prod.fst) [] other.faults) :=
    couples_resolveAll alike.objects skips ⟨rfl, alike.faults⟩
  refine resolved.bind ?_ leftAfter rightAfter twins
  rintro ⟨maps, faults⟩ ⟨others, causes⟩ ⟨mapsEq, faultsEq⟩ first second related
  refine .ok rfl ⟨?_, related.inside, ⟨related.firstSound.segment, related.firstSound.lenient⟩,
    ⟨related.secondSound.segment, related.secondSound.lenient⟩⟩
  calc
    _ = { first.veil slave with
          dictionary := ⟨found.objects.without (slave : Int)⟩
          maps := maps.without (slave : Int)
          discoveryFaults := faults.without (slave : Int) } := rfl
    _ = { second.veil slave with
          dictionary := ⟨other.objects.without (slave : Int)⟩
          maps := others.without (slave : Int)
          discoveryFaults := causes.without (slave : Int) } := by
        rw [related.shown, alike.objects, mapsEq, faultsEq]

end Caches

section Validation

/-- Twins with given maps. -/
def Holding (slave size : Nat) (lefts rights : Table Int PdoMap)
    (first second : Master MemoryEngine) : Prop :=
  Twins slave size first second ∧ first.maps = lefts ∧ second.maps = rights

variable {lefts rights : Table Int PdoMap}

theorem couples_validateSizes (different : other ≠ slave) :
    Couples (Twins slave size) Eq (validateSizes other) (validateSizes other) := by
  have apart : (other : Int) ≠ slave := by omega
  have mapped : Couples (Twins slave size) Eq (map (other : Int)) (map (other : Int)) := by
    intro left right twins
    rw [map, map, Table.get?_eq_of_without apart twins.maps]
    cases right.maps.get? (other : Int) with
    | none => exact .error _ twins
    | some found => exact .ok rfl twins
  refine mapped.bind ?_
  rintro found _ rfl
  refine (Couples.ofExcept _).bind ?_
  rintro ⟨outputs, inputs⟩ _ rfl
  refine (couples_ask (MemoryEngine.couples_slaveInfo different)).bind ?_
  rintro info _ rfl
  dsimp only
  split
  · exact Couples.pure rfl
  · refine Couples.get.bind ?_
    intro left right twins
    rw [twins.firstSound.lenient.sizes, twins.secondSound.lenient.sizes]
    refine (couples_report _ _ _).bind ?_
    intro _ _ _
    exact Couples.pure rfl

theorem contained_validateSizes {found : PdoMap} (held : lefts.get? (slave : Int) = some found)
    (gapless : found.Gapless) :
    Contained (Holding slave size lefts rights · right) never (fun _ => True)
      (validateSizes slave) := by
  have mapped : Contained (Holding slave size lefts rights · right) never (· = found)
      (map (slave : Int)) := by
    intro master holding
    rw [map, holding.2.1, held]
    exact .ok rfl holding
  have asked {α : Type} {values : α → Prop} {action : Action (Session MemoryEngine) α}
      (contained : ∀ view count,
        Contained (Session.Shows slave size view count) never values action) :
      Contained (Holding slave size lefts rights · right) never values (inSession action) :=
    contained_inSession contained (fun _ holding => holding.1.engines)
      fun _ _ holding engines => ⟨holding.1.withSessions engines, holding.2⟩
  have sized : Contained (Holding slave size lefts rights · right) never (fun _ => True)
      (ofAccident found.bitSizes) := by
    rw [gapless.bitSizes_eq]
    exact Contained.pure trivial
  refine mapped.bind ?_
  rintro _ rfl
  refine sized.bind ?_
  rintro ⟨outputs, inputs⟩ _
  refine (asked fun _ _ => Session.contained_ask MemoryEngine.contained_slaveInfo).bind ?_
  intro info _
  dsimp only
  split
  · exact Contained.pure trivial
  · refine Contained.get.bind ?_
    intro master holding
    rw [holding.1.firstSound.lenient.sizes]
    have reported (text : Text) : Contained (Holding slave size lefts rights · right) never
        (fun _ => True) (report .warning text) := asked fun _ _ _ shows => .ok trivial shows
    refine (reported _).bind ?_
    intro _ _
    exact Contained.pure trivial

theorem couples_validateAll (leftGapless : AllGapless lefts) (rightGapless : AllGapless rights)
    {positions others : List Int} (skips : Skips slave positions others)
    (leftKnown : ∀ key ∈ positions, ∃ found, lefts.get? key = some found)
    (rightKnown : ∀ key ∈ others, ∃ found, rights.get? key = some found) :
    Couples (Holding slave size lefts rights) Eq (validateAll positions) (validateAll others) := by
  have mirrored (left right : Master MemoryEngine) :
      Holding slave size lefts rights left right ↔ Holding slave size rights lefts right left := by
    constructor
    · rintro ⟨twins, leftMaps, rightMaps⟩
      exact ⟨twins.symm, rightMaps, leftMaps⟩
    · rintro ⟨twins, rightMaps, leftMaps⟩
      exact ⟨twins.symm, leftMaps, rightMaps⟩
  induction skips with
  | nil => exact Couples.pure rfl
  | left _ ih =>
      obtain ⟨found, held⟩ := leftKnown _ List.mem_cons_self
      have later := fun key member => leftKnown key (List.mem_cons_of_mem _ member)
      refine Couples.left
        (fun _ => contained_validateSizes held (leftGapless _ _ held)) ?_
      intro _ _
      exact ih later rightKnown
  | right _ ih =>
      obtain ⟨found, held⟩ := rightKnown _ List.mem_cons_self
      have later := fun key member => rightKnown key (List.mem_cons_of_mem _ member)
      refine Couples.right (fun left =>
        (contained_validateSizes held (rightGapless _ _ held)).congr (mirrored left)) ?_
      intro _ _
      exact ih leftKnown later
  | both different _ ih =>
      have leftLater := fun key member => leftKnown key (List.mem_cons_of_mem _ member)
      have rightLater := fun key member => rightKnown key (List.mem_cons_of_mem _ member)
      refine ((couples_validateSizes different).keeping (moves_validateSizes _)
        (moves_validateSizes _)).bind ?_
      intro _ _ _
      exact ih leftLater rightLater

/-- Sizes are compared without a fault where all maps are gapless. -/
theorem contained_validateAll (gapless : AllGapless lefts) {positions : List Int}
    (listed : Positions size positions)
    (known : ∀ key ∈ positions, ∃ found, lefts.get? key = some found) :
    Contained (fun master => Sound size master ∧ master.maps = lefts) never (fun _ => True)
      (validateAll positions) := by
  induction positions with
  | nil => exact Contained.pure trivial
  | cons key rest ih =>
      have listedLater : Positions size rest := fun key member =>
        listed key (List.mem_cons_of_mem _ member)
      have knownLater := fun key member => known key (List.mem_cons_of_mem _ member)
      obtain ⟨position, inside, rfl⟩ := listed key List.mem_cons_self
      obtain ⟨found, held⟩ := known _ List.mem_cons_self
      have compared : Contained (fun master => Sound size master ∧ master.maps = lefts) never
          (fun _ => True) (validateSizes position) := by
        rintro master ⟨sound, mapsEq⟩
        have holding : Holding position size lefts lefts master master :=
          ⟨⟨rfl, inside, sound, sound⟩, mapsEq, mapsEq⟩
        have ended := contained_validateSizes held (gapless _ _ held) master holding
        exact ended.mono fun _ kept => ⟨kept.1.firstSound, kept.2.1⟩
      exact compared.bind fun _ _ => ih listedLater knownLater

theorem insistOnDiscovery_of_sound {master : Master MemoryEngine} (sound : Sound size master) :
    insistOnDiscovery master = .ok () master := by
  rw [insistOnDiscovery, bind_of_ok (get_apply master)]
  cases master.discoveryFaults with
  | nil => rfl
  | cons pair rest =>
      obtain ⟨position, fault⟩ := pair
      simp only [sound.lenient.discovery]
      rfl

theorem couples_insistOnDiscovery :
    Couples (Twins slave size) Eq insistOnDiscovery insistOnDiscovery := by
  intro left right twins
  rw [insistOnDiscovery_of_sound twins.firstSound, insistOnDiscovery_of_sound twins.secondSound]
  exact .ok rfl twins

end Validation

end Master

end Fieldbus
