import Fieldbus.Proofs.Master.Hidden
import Fieldbus.Proofs.Master.Images
import Fieldbus.Proofs.Master.Passes
import Fieldbus.Proofs.Segment.Listing

/-!
# What a configuration pass finds of each slave

A pass that succeeds puts every slave in one of three classes: its dictionary is complete and it
has a map; or its dictionary is complete and the fault is recorded that its map could not be
resolved; or the fault is recorded that its dictionary could not be read, and the dictionary holds
the objects that were completed before.  Nothing is kept of any other position.
-/

namespace Fieldbus

namespace Master

open Fieldbus.Action

variable {size position : Nat} {listings : List Listing} {listing : Listing}

section Roster

variable {roster : Option Int × List Listing}

/-- A master whose engine has a given roster. -/
def Lists (roster : Option Int × List Listing) (master : Master MemoryEngine) : Prop :=
  master.engine.Lists roster

instance : AllowsTalks (Preserve (Lists roster)) where
  notices _ _ := id
  talks := preserve_inSession fun routine => MemoryEngine.lists_request routine.isRequest

theorem lists_setImage (image : Bytes) : Moves (Preserve (Lists roster)) (setImage image) :=
  fun _ => id

instance : AllowsStates (Preserve (Lists roster)) where
  connects adapter := preserve_ask (MemoryEngine.lists_request (.connect adapter))
  disconnects := preserve_ask (MemoryEngine.lists_request .disconnect)
  tells told master lists := by
    cases told with
    | taskStarted => exact lists
    | taskJoined => exact lists
    | wait seconds => exact lists
  zeroOutputs slave := by
    refine Moves.bind (moves_request (.outputRange _)) ?_
    intro range
    refine Moves.bind moves_image ?_
    intro image
    exact lists_setImage _
  setValue slave entry value := by
    refine Moves.bind (moves_map slave) ?_
    intro map
    refine Moves.bind (moves_request (.outputRange _)) ?_
    intro range
    refine Moves.bind moves_image ?_
    intro image
    refine Moves.bind (Moves.ofExcept _) ?_
    intro outputs
    exact lists_setImage _
  lastWkc _ _ := id
  okCount _ _ := id
  errorCount _ _ := id
  handles _ _ := id
  running _ _ := id
  opened _ _ := id
  inOp _ _ := id

end Roster

section Dictionaries

/-- What findings become by what reading the dictionary of a slave comes to. -/
def Findings.adding (findings : Findings) (slave : Int) :
    Except Fault (List ObjectInfo) → Findings
  | .ok objects => { findings with objects := findings.objects.put slave objects }
  | .error fault =>
      { objects :=
          if fault.completed.isEmpty then findings.objects
          else findings.objects.put slave fault.completed
        faults := findings.faults.put slave fault }

/-- Findings tell of a slave what reading its dictionary came to. -/
def Findings.Tell (findings : Findings) (slave : Int) :
    Except Fault (List ObjectInfo) → Prop
  | .ok objects =>
      findings.objects.get? slave = some objects ∧ findings.faults.get? slave = none
  | .error fault =>
      findings.objects.get? slave =
          (if fault.completed.isEmpty then none else some fault.completed) ∧
        findings.faults.get? slave = some fault

/-- The findings of the slaves before a position. -/
structure Surveyed (listings : List Listing) (position : Nat) (findings : Findings) : Prop where
  told : ∀ slave listing, slave < position → listings[slave]? = some listing →
    findings.Tell slave (listing.walk slave)
  inside : position ≤ listings.length
  objects : Positions position (findings.objects.map Prod.fst)
  faults : Positions position (findings.faults.map Prod.fst)
  distinct : (findings.objects.map Prod.fst).Nodup

variable {findings found : Findings} {master after : Master MemoryEngine}

theorem Surveyed.initial : Surveyed listings 0 ⟨[], []⟩ where
  told _ _ before := absurd before (Nat.not_lt_zero _)
  inside := Nat.zero_le _
  objects := Positions.nil
  faults := Positions.nil
  distinct := List.nodup_nil

theorem Positions.get?_eq_none {α : Type} {table : Table Int α}
    (known : Positions size (table.map Prod.fst)) : table.get? (size : Int) = none := by
  apply Table.get?_eq_none
  intro member
  obtain ⟨position, inside, same⟩ := known _ member
  omega

theorem Positions.put {α : Type} {table : Table Int α} {value : α}
    (known : Positions size (table.map Prod.fst)) (inside : position < size) :
    Positions size ((table.put position value).map Prod.fst) := by
  intro key member
  rcases Table.mem_keys_put.mp member with rfl | before
  · exact ⟨position, inside, rfl⟩
  · exact known key before

theorem Positions.mono {keys : List Int} (known : Positions size keys) {more : Nat}
    (fewer : size ≤ more) : Positions more keys := by
  intro key member
  obtain ⟨position, inside, same⟩ := known key member
  exact ⟨position, by omega, same⟩

theorem Findings.tell_adding (walked : Except Fault (List ObjectInfo))
    (objects : findings.objects.get? (position : Int) = none)
    (faults : findings.faults.get? (position : Int) = none) :
    (findings.adding position walked).Tell position walked := by
  cases walked with
  | ok found => exact ⟨by rw [Findings.adding, Table.get?_put, if_pos rfl], faults⟩
  | error fault =>
      refine ⟨?_, by rw [Findings.adding, Table.get?_put, if_pos rfl]⟩
      rw [Findings.adding]
      dsimp only
      split
      · exact objects
      · rw [Table.get?_put, if_pos rfl]

/-- What was told of another slave is not changed. -/
theorem Findings.Tell.adding {slave : Nat} {told : Except Fault (List ObjectInfo)}
    (known : findings.Tell slave told) (different : position ≠ slave)
    (walked : Except Fault (List ObjectInfo)) :
    (findings.adding position walked).Tell slave told := by
  have apart : ¬ (position : Int) = slave := by omega
  have objects : (findings.adding position walked).objects.get? slave =
      findings.objects.get? slave := by
    cases walked with
    | ok found => rw [Findings.adding, Table.get?_put, if_neg apart]
    | error fault =>
        rw [Findings.adding]
        dsimp only
        split
        · rfl
        · rw [Table.get?_put, if_neg apart]
  have faults : (findings.adding position walked).faults.get? slave =
      findings.faults.get? slave := by
    cases walked with
    | ok found => rfl
    | error fault => rw [Findings.adding, Table.get?_put, if_neg apart]
  cases told with
  | ok found => exact ⟨objects.trans known.1, faults.trans known.2⟩
  | error fault => exact ⟨objects.trans known.1, faults.trans known.2⟩

theorem Surveyed.next (surveyed : Surveyed listings position findings)
    (listed : listings[position]? = some listing) :
    Surveyed listings (position + 1) (findings.adding position (listing.walk position)) where
  told slave other before otherListed := by
    rcases Nat.lt_succ_iff_lt_or_eq.mp before with earlier | rfl
    · exact (surveyed.told slave other earlier otherListed).adding (by omega) _
    · obtain rfl := Option.some.inj (otherListed.symm.trans listed)
      exact Findings.tell_adding _ surveyed.objects.get?_eq_none surveyed.faults.get?_eq_none
  inside := (List.getElem?_eq_some_iff.mp listed).1
  objects := by
    have known := surveyed.objects.mono (Nat.le_succ position)
    cases listing.walk position with
    | ok objects => exact known.put (Nat.lt_succ_self _)
    | error fault =>
        rw [Findings.adding]
        dsimp only
        split
        · exact known
        · exact known.put (Nat.lt_succ_self _)
  faults := by
    have known := surveyed.faults.mono (Nat.le_succ position)
    cases listing.walk position with
    | ok objects => exact known
    | error fault => exact known.put (Nat.lt_succ_self _)
  distinct := by
    cases listing.walk position with
    | ok objects => exact Table.nodup_put surveyed.distinct
    | error fault =>
        rw [Findings.adding]
        dsimp only
        split
        · exact surveyed.distinct
        · exact Table.nodup_put surveyed.distinct

/-- The discovery of a slave that succeeds finds what is set up for the slave. -/
theorem discovery_eq_ok
    (discovered : discovery (position : Int) findings master = .ok found after) :
    ∃ slave, master.engine.segment.slaves[position]? = some slave ∧
      found = findings.adding position (slave.listing.walk position) := by
  cases present : master.engine.segment.slaves[position]? with
  | none =>
      have read : inSession (Discovery.readObjects (position : Int)) master =
          .error (.accident .position) master :=
        within_eq_error_iff.mpr ⟨_, Discovery.readObjects_of_missing present, rfl⟩
      rw [discovery, catching_of_uncaught (bind_of_error read) rfl] at discovered
      cases discovered
  | some slave =>
      refine ⟨slave, rfl, ?_⟩
      obtain ⟨notices, read⟩ := Discovery.exists_readObjects
        (show master.session.engine.segment.slaves[position]? = some slave from present)
      cases walked : slave.listing.walk position with
      | ok objects =>
          rw [walked] at read
          have asked : inSession (Discovery.readObjects (position : Int)) master =
              .ok objects { master with session := ⟨master.engine, notices⟩ } :=
            within_eq_ok_iff.mpr ⟨_, read, rfl⟩
          have outcome : discovery (position : Int) findings master =
              .ok (findings.adding position (.ok objects))
                { master with session := ⟨master.engine, notices⟩ } :=
            catching_of_ok ((bind_of_ok asked).trans rfl)
          rw [outcome] at discovered
          cases discovered
          rfl
      | error fault =>
          rw [walked] at read
          have asked : inSession (Discovery.readObjects (position : Int)) master =
              .error fault { master with session := ⟨master.engine, notices⟩ } :=
            within_eq_error_iff.mpr ⟨_, read, rfl⟩
          have caught := (Listing.of_walk_eq_error walked).1
          rw [discovery, catching_of_caught (bind_of_error asked) caught] at discovered
          cases discovered
          rfl

theorem moves_discovery {relation : Master MemoryEngine → Master MemoryEngine → Prop}
    [AllowsTalks relation] (position : Int) (findings : Findings) :
    Moves relation (discovery position findings) := by
  refine Moves.catching ?_ fun _ => moves_recordFailure _ _ _ _
  refine Moves.bind (AllowsTalks.talks ?_) fun _ => Moves.pure _
  exact (Discovery.talks_readObjects _).mono Engine.Reads.isRoutine

variable {enumerated : Option Int}

/-- Discovery surveys one slave after the other. -/
theorem surveyed_of_discoverFrom {count : Nat} (lists : Lists (enumerated, listings) master)
    (surveyed : Surveyed listings position findings)
    (discovered : discoverFrom count position findings master = .ok found after) :
    Surveyed listings (position + count) found := by
  induction count generalizing position findings master with
  | zero =>
      cases discovered
      exact surveyed
  | succ count ih =>
      rw [discoverFrom_succ] at discovered
      obtain ⟨next, between, first, rest⟩ := bind_eq_ok_iff.mp discovered
      obtain ⟨slave, present, rfl⟩ := discovery_eq_ok first
      have listed : listings[position]? = some slave.listing := by
        have same : master.engine.segment.slaves.map SimulatedSlave.listing = listings :=
          congrArg Prod.snd lists
        rw [← same, List.getElem?_map, present]
        rfl
      have kept : Preserve (Lists (enumerated, listings)) master between :=
        (moves_discovery _ _).of_ok first
      have more := ih (kept lists) (surveyed.next listed) rest
      rwa [Nat.add_right_comm, Nat.add_assoc] at more

end Dictionaries

section Maps

variable {dictionary : ObjectDictionary} {maps : Table Int PdoMap} {faults : Table Int Fault}
  {outcome : Table Int PdoMap × Table Int Fault} {master after : Master MemoryEngine}

/-- The map of a slave was resolved and kept, or the fault is recorded that it was not. -/
inductive Resolved (dictionary : ObjectDictionary) (maps : Table Int PdoMap)
    (faults : Table Int Fault) (slave : Int) : Prop
  | mapped {timeout : Number} {session done : Session MemoryEngine} {map : PdoMap} :
      Layout.resolve (some dictionary) slave timeout session = .ok map done →
      maps.get? slave = some map → faults.get? slave = none →
      Resolved dictionary maps faults slave
  | failed {timeout : Number} {session done : Session MemoryEngine} {fault : Fault} :
      Layout.resolve (some dictionary) slave timeout session = .error fault done →
      maps.get? slave = none → faults.get? slave = some fault →
      Resolved dictionary maps faults slave

/-- What resolving the map of a slave puts into the tables. -/
inductive Resolves (dictionary : ObjectDictionary) (slave : Int) (maps : Table Int PdoMap)
    (faults : Table Int Fault) : Table Int PdoMap × Table Int Fault → Prop
  | mapped {timeout : Number} {session done : Session MemoryEngine} {map : PdoMap} :
      Layout.resolve (some dictionary) slave timeout session = .ok map done →
      Resolves dictionary slave maps faults (maps.put slave map, faults)
  | failed {timeout : Number} {session done : Session MemoryEngine} {fault : Fault} :
      Layout.resolve (some dictionary) slave timeout session = .error fault done →
      Resolves dictionary slave maps faults (maps, faults.put slave fault)

/-- A timeout that is no number is no fault of the exchange. -/
theorem isCommunication_of_sdoTimeout {fault : Fault}
    (failed : sdoTimeout master = .error fault after) : fault.isCommunication = false := by
  rw [sdoTimeout, bind_of_ok (get_apply master)] at failed
  rcases bind_eq_error_iff.mp failed with refused | ⟨_, _, _, returned⟩
  · cases timeout : master.config.sdoTimeout with
    | ok seconds =>
        rw [timeout] at refused
        cases refused
    | error accident =>
        rw [timeout] at refused
        cases refused
        rfl
  · cases returned

theorem resolves_of_resolution {slave : Int}
    (settled : resolution dictionary slave maps faults master = .ok outcome after) :
    Resolves dictionary slave maps faults outcome := by
  rcases catching_eq_ok_iff.mp settled with succeeded | ⟨fault, between, failed, caught, handled⟩
  · obtain ⟨timeout, _, _, rest⟩ := bind_eq_ok_iff.mp succeeded
    obtain ⟨map, _, resolved, kept⟩ := bind_eq_ok_iff.mp rest
    obtain ⟨done, found, _⟩ := within_eq_ok_iff.mp resolved
    cases kept
    exact .mapped found
  · obtain ⟨_, _, _, kept⟩ := bind_eq_ok_iff.mp handled
    cases kept
    rcases bind_eq_error_iff.mp failed with refused | ⟨timeout, _, _, rest⟩
    · rw [isCommunication_of_sdoTimeout refused] at caught
      cases caught
    · rcases bind_eq_error_iff.mp rest with refused | ⟨_, _, _, returned⟩
      · obtain ⟨done, found, _⟩ := within_eq_error_iff.mp refused
        exact .failed found
      · cases returned

section Resolves

variable {slave : Int} (resolves : Resolves dictionary slave maps faults outcome)

include resolves

theorem Resolves.resolved (noMap : maps.get? slave = none) (noFault : faults.get? slave = none) :
    Resolved dictionary outcome.1 outcome.2 slave := by
  cases resolves with
  | mapped found => exact .mapped found (by rw [Table.get?_put, if_pos rfl]) noFault
  | failed found => exact .failed found noMap (by rw [Table.get?_put, if_pos rfl])

theorem Resolves.others {other : Int} (different : slave ≠ other) :
    outcome.1.get? other = maps.get? other ∧ outcome.2.get? other = faults.get? other := by
  cases resolves with
  | mapped found => exact ⟨by rw [Table.get?_put, if_neg different], rfl⟩
  | failed found => exact ⟨rfl, by rw [Table.get?_put, if_neg different]⟩

end Resolves

theorem Resolves.positions (resolves : Resolves dictionary (position : Int) maps faults outcome)
    (inside : position < size) (mapKeys : Positions size (maps.map Prod.fst))
    (faultKeys : Positions size (faults.map Prod.fst)) :
    Positions size (outcome.1.map Prod.fst) ∧ Positions size (outcome.2.map Prod.fst) := by
  cases resolves with
  | mapped found => exact ⟨mapKeys.put inside, faultKeys⟩
  | failed found => exact ⟨mapKeys, faultKeys.put inside⟩

theorem Resolved.congr {others : Table Int PdoMap} {causes : Table Int Fault} {slave : Int}
    (resolved : Resolved dictionary maps faults slave)
    (same : others.get? slave = maps.get? slave ∧ causes.get? slave = faults.get? slave) :
    Resolved dictionary others causes slave := by
  cases resolved with
  | mapped found map fault => exact .mapped found (same.1.trans map) (same.2.trans fault)
  | failed found map fault => exact .failed found (same.1.trans map) (same.2.trans fault)

/-- How far resolution has come, with the positions that are still to be looked at. -/
structure Sorted (listings : List Listing) (size : Nat) (dictionary : ObjectDictionary)
    (rest : List Int) (maps : Table Int PdoMap) (faults : Table Int Fault) : Prop where
  unread : ∀ (slave : Nat) listing fault, slave < size → listings[slave]? = some listing →
    listing.walk slave = .error fault →
    maps.get? (slave : Int) = none ∧ faults.get? (slave : Int) = some fault
  waiting : ∀ (slave : Nat) listing objects, slave < size → listings[slave]? = some listing →
    listing.walk slave = .ok objects → (slave : Int) ∈ rest →
    maps.get? (slave : Int) = none ∧ faults.get? (slave : Int) = none
  resolved : ∀ (slave : Nat) listing objects, slave < size → listings[slave]? = some listing →
    listing.walk slave = .ok objects → (slave : Int) ∉ rest →
    Resolved dictionary maps faults slave
  maps : Positions size (maps.map Prod.fst)
  faults : Positions size (faults.map Prod.fst)

variable {rest : List Int}

theorem Sorted.skip
    (sorted : Sorted listings size dictionary ((position : Int) :: rest) maps faults)
    (known : faults.has (position : Int)) : Sorted listings size dictionary rest maps faults where
  unread := sorted.unread
  waiting slave other objects before otherListed walked member :=
    sorted.waiting slave other objects before otherListed walked (List.mem_cons_of_mem _ member)
  resolved slave other objects before otherListed walked missing := by
    refine sorted.resolved slave other objects before otherListed walked ?_
    intro member
    rcases List.mem_cons.mp member with same | later
    · rw [← same, Table.has,
        (sorted.waiting slave other objects before otherListed walked member).2] at known
      cases known
    · exact missing later
  maps := sorted.maps
  faults := sorted.faults

theorem Sorted.resolve
    (sorted : Sorted listings size dictionary ((position : Int) :: rest) maps faults)
    (inside : position < size)
    (distinct : ((position : Int) :: rest).Nodup) (unknown : ¬ faults.has (position : Int))
    (resolves : Resolves dictionary (position : Int) maps faults outcome) :
    Sorted listings size dictionary rest outcome.1 outcome.2 := by
  have later := (List.nodup_cons.mp distinct).1
  obtain ⟨mapKeys, faultKeys⟩ := resolves.positions inside sorted.maps sorted.faults
  refine ⟨?_, ?_, ?_, mapKeys, faultKeys⟩
  · intro slave other fault before otherListed walked
    have told := sorted.unread slave other fault before otherListed walked
    have different : (position : Int) ≠ slave := by
      intro same
      rw [same, Table.has, told.2] at unknown
      exact unknown rfl
    obtain ⟨mapEq, faultEq⟩ := resolves.others different
    exact ⟨mapEq.trans told.1, faultEq.trans told.2⟩
  · intro slave other objects before otherListed walked member
    have told := sorted.waiting slave other objects before otherListed walked
      (List.mem_cons_of_mem _ member)
    have different : (position : Int) ≠ slave := by
      intro same
      exact later (same ▸ member)
    obtain ⟨mapEq, faultEq⟩ := resolves.others different
    exact ⟨mapEq.trans told.1, faultEq.trans told.2⟩
  · intro slave other objects before otherListed walked missing
    by_cases same : (position : Int) = slave
    · have told := sorted.waiting slave other objects before otherListed walked
        (List.mem_cons.mpr (Or.inl same.symm))
      rw [← same] at told ⊢
      exact resolves.resolved told.1 told.2
    · refine (sorted.resolved slave other objects before otherListed walked ?_).congr
        (resolves.others same)
      intro member
      rcases List.mem_cons.mp member with equal | member
      · exact same equal.symm
      · exact missing member

theorem sorted_of_resolveAll (positions : Positions size rest)
    (distinct : rest.Nodup) (sorted : Sorted listings size dictionary rest maps faults)
    (resolved : resolveAll dictionary rest maps faults master = .ok outcome after) :
    Sorted listings size dictionary [] outcome.1 outcome.2 := by
  induction rest generalizing maps faults master with
  | nil =>
      cases resolved
      exact sorted
  | cons key rest ih =>
      obtain ⟨position, inside, rfl⟩ := positions key List.mem_cons_self
      have later : Positions size rest := fun key member =>
        positions key (List.mem_cons_of_mem _ member)
      have laterDistinct := (List.nodup_cons.mp distinct).2
      rw [resolveAll_cons] at resolved
      split at resolved
      · rename_i known
        exact ih later laterDistinct (sorted.skip known) resolved
      · rename_i unknown
        obtain ⟨next, between, first, more⟩ := bind_eq_ok_iff.mp resolved
        exact ih later laterDistinct
          (sorted.resolve inside distinct unknown (resolves_of_resolution first)) more

/-- Before resolution the maps of all slaves are waiting whose dictionaries were read. -/
theorem Surveyed.sorted {findings : Findings} (surveyed : Surveyed listings size findings) :
    Sorted listings size ⟨findings.objects⟩ (findings.objects.map Prod.fst) [] findings.faults where
  unread slave listing fault before listed walked := by
    have told := surveyed.told slave listing before listed
    rw [walked] at told
    exact ⟨rfl, told.2⟩
  waiting slave listing objects before listed walked _ := by
    have told := surveyed.told slave listing before listed
    rw [walked] at told
    exact ⟨rfl, told.2⟩
  resolved slave listing objects before listed walked missing := by
    have told := surveyed.told slave listing before listed
    rw [walked] at told
    exact absurd (Table.mem_keys_of_get? told.1) missing
  maps := Positions.nil
  faults := surveyed.faults

end Maps

section Classes

variable {caches : Caches} {master after : Master MemoryEngine}

/-- The class that a configuration pass puts a slave in. -/
inductive Classified (caches : Caches) (slave : Nat) (listing : Listing) : Prop
  /-- The dictionary is complete, and the map was resolved by it. -/
  | mapped {timeout : Number} {session done : Session MemoryEngine} {map : PdoMap} :
      listing.walk slave = .ok listing.infos →
      caches.dictionary.get? slave = some listing.infos →
      Layout.resolve (some caches.dictionary) slave timeout session = .ok map done →
      caches.maps.get? slave = some map → caches.faults.get? slave = none →
      Classified caches slave listing
  /-- The dictionary is complete, and the map could not be resolved. -/
  | unmapped {timeout : Number} {session done : Session MemoryEngine} {fault : Fault} :
      listing.walk slave = .ok listing.infos →
      caches.dictionary.get? slave = some listing.infos →
      Layout.resolve (some caches.dictionary) slave timeout session = .error fault done →
      caches.maps.get? slave = none → caches.faults.get? slave = some fault →
      Classified caches slave listing
  /-- The dictionary could not be read.  It holds what was completed before, if that is
  anything. -/
  | unread {fault : Fault} {count : Nat} :
      listing.walk slave = .error fault → fault.completed = listing.infos.take count →
      caches.dictionary.get? slave =
        (if fault.completed.isEmpty then none else some fault.completed) →
      caches.maps.get? slave = none → caches.faults.get? slave = some fault →
      Classified caches slave listing

def slavesFound (master : Master MemoryEngine) : Nat :=
  (master.engine.segment.enumerated.getD master.engine.segment.slaves.length).toNat

theorem classified_of_discoverAll {enumerated : Option Int} {count : Nat}
    (lists : Lists (enumerated, listings) master)
    (discovered : discoverAll count master = .ok () after) :
    (∀ slave < count, ∃ listing, listings[slave]? = some listing ∧
        Classified after.caches slave listing) ∧
      Positions count after.dictionary.positions ∧
      Positions count (after.maps.map Prod.fst) ∧
      Positions count (after.discoveryFaults.map Prod.fst) := by
  obtain ⟨findings, between, found, rest⟩ := bind_eq_ok_iff.mp discovered
  obtain ⟨⟨maps, faults⟩, resolvedAfter, resolved, kept⟩ := bind_eq_ok_iff.mp rest
  cases kept
  have surveyed : Surveyed listings count findings := by
    have more := surveyed_of_discoverFrom lists Surveyed.initial found
    rwa [Nat.zero_add] at more
  have sorted := sorted_of_resolveAll surveyed.objects surveyed.distinct surveyed.sorted resolved
  refine ⟨?_, surveyed.objects, sorted.maps, sorted.faults⟩
  intro slave before
  obtain ⟨listing, listed⟩ : ∃ listing, listings[slave]? = some listing :=
    ⟨_, List.getElem?_eq_getElem (lt_of_lt_of_le before surveyed.inside)⟩
  refine ⟨listing, listed, ?_⟩
  have told := surveyed.told slave listing before listed
  cases walked : listing.walk slave with
  | error fault =>
      rw [walked] at told
      obtain ⟨map, cause⟩ := sorted.unread slave _ fault before listed walked
      obtain ⟨_, completed⟩ := (Listing.of_walk_eq_error walked).2
      exact .unread walked completed told.1 map cause
  | ok objects =>
      have complete := Listing.eq_infos_of_walk walked
      rw [complete] at walked
      rw [walked] at told
      cases sorted.resolved slave _ _ before listed walked List.not_mem_nil with
      | mapped resolves map cause => exact .mapped walked told.1 resolves map cause
      | failed resolves map cause => exact .unmapped walked told.1 resolves map cause

theorem count_of_prepare {count : Nat} (prepared : prepare master = .ok count after) :
    count = slavesFound master := by
  obtain ⟨roster, lists⟩ : ∃ roster, Lists roster master := ⟨_, rfl⟩
  have counted {state : Master MemoryEngine} (kept : Lists roster state) :
      state.engine.segment.enumerated.getD state.engine.segment.slaves.length =
        roster.1.getD roster.2.length := by
    rw [← kept]
    simp only [Segment.roster, List.length_map]
  obtain ⟨_, stopped, stopping, rest⟩ := bind_eq_ok_iff.mp prepared
  obtain ⟨_, cleared, clearing, rest⟩ := bind_eq_ok_iff.mp rest
  obtain ⟨_, reached, reaching, rest⟩ := bind_eq_ok_iff.mp rest
  obtain ⟨number, asked, asking, rest⟩ := bind_eq_ok_iff.mp rest
  have stopKeeps : Preserve (Lists roster) master stopped := moves_stop.of_ok stopping
  have reachKeeps : Preserve (Lists roster) cleared reached := (moves_reach _).of_ok reaching
  have kept : Lists roster reached := by
    cases clearing
    exact reachKeeps (stopKeeps lists)
  have numberEq : number = roster.1.getD roster.2.length := by
    obtain ⟨engine, enumerated, _⟩ := exists_of_ask_ok asking
    cases enumerated
    exact counted kept
  by_cases none : number ≤ 0
  · rw [if_pos none] at rest
    cases rest
  · rw [if_neg none] at rest
    obtain ⟨_, _, _, rest⟩ := bind_eq_ok_iff.mp rest
    obtain ⟨_, _, _, rest⟩ := bind_eq_ok_iff.mp rest
    cases rest
    rw [slavesFound, counted lists, numberEq]

theorem lists_of_stages {roster : Option Int × List Listing} {count : Nat}
    {prepared assigned laid : Master MemoryEngine}
    (preparing : prepare master = .ok count prepared)
    (assigning : assign count prepared = .ok () assigned) (laying : layOut assigned = .ok () laid)
    (lists : Lists roster master) : Lists roster laid := by
  have prepareKeeps : Preserve (Lists roster) master prepared := moves_prepare.of_ok preparing
  have assignKeeps : Preserve (Lists roster) prepared assigned :=
    (moves_assign _).of_ok assigning
  have maps : Moves (Preserve (Lists roster)) (ask (Engine.mapImage (ε := MemoryEngine))) :=
    preserve_ask (MemoryEngine.lists_request .mapImage)
  have layKeeps : Preserve (Lists roster) assigned laid :=
    (moves_layOut (fun _ => id) maps).of_ok laying
  exact layKeeps (assignKeeps (prepareKeeps lists))

/-- After a configuration pass that succeeds, each slave is in exactly one class, by the objects that
show what the slave says of them, and no other position has a dictionary, a map or a fault. -/
theorem configure_classifies (configured : configure master = .ok () after) :
    (∀ slave < slavesFound master, ∃ listing,
        (master.engine.segment.slaves.map SimulatedSlave.listing)[slave]? = some listing ∧
          Discovery.ShowsAll listing.answers listing.infos ∧
          Classified after.caches slave listing) ∧
      ∀ key : Int, after.dictionary.get? key ≠ none ∨ after.maps.get? key ≠ none ∨
          after.discoveryFaults.get? key ≠ none →
        ∃ slave : Nat, slave < slavesFound master ∧ key = slave := by
  obtain ⟨count, prepared, preparing, rest⟩ := bind_eq_ok_iff.mp configured
  obtain ⟨_, assigned, assigning, rest⟩ := bind_eq_ok_iff.mp rest
  obtain ⟨_, laid, laying, rest⟩ := bind_eq_ok_iff.mp rest
  obtain ⟨_, found, finding, rest⟩ := bind_eq_ok_iff.mp rest
  obtain ⟨_, got, getting, rest⟩ := bind_eq_ok_iff.mp rest
  cases getting
  obtain ⟨_, validated, validating, insisting⟩ := bind_eq_ok_iff.mp rest
  obtain rfl := count_of_prepare preparing
  have lists : Lists master.engine.segment.roster laid :=
    lists_of_stages preparing assigning laying rfl
  have validateKeeps : Keep caches found validated := (moves_validateAll _).of_ok validating
  have insistKeeps : Keep caches validated after := moves_insistOnDiscovery.of_ok insisting
  have kept : after.caches = found.caches := insistKeeps.trans validateKeeps
  obtain ⟨classified, objects, maps, faults⟩ := classified_of_discoverAll lists finding
  rw [kept]
  refine ⟨?_, ?_⟩
  · intro slave before
    obtain ⟨listing, listed, inClass⟩ := classified slave before
    exact ⟨listing, listed, listing.showsAll_infos, inClass⟩
  have dictionaryEq : after.dictionary = found.dictionary := congrArg Caches.dictionary kept
  have mapsEq : after.maps = found.maps := congrArg Caches.maps kept
  have faultsEq : after.discoveryFaults = found.discoveryFaults := congrArg Caches.faults kept
  have listed {α : Type} {table : Table Int α} (keys : Positions (slavesFound master)
      (table.map Prod.fst)) {key : Int} (present : table.get? key ≠ none) :
      ∃ slave : Nat, slave < slavesFound master ∧ key = slave := by
    obtain ⟨value, held⟩ := Option.ne_none_iff_exists'.mp present
    exact keys key (Table.mem_keys_of_get? held)
  rw [dictionaryEq, mapsEq, faultsEq]
  rintro key (present | present | present)
  · exact listed objects present
  · exact listed maps present
  · exact listed faults present

/-- A bus with a slave of each class, and one that does not list its objects. -/
def mixedMaster : Master MemoryEngine :=
  let object : SimulatedObject := ⟨0x1000, 7, 7, some 0, .text "Device type", [], 32, 7⟩
  idle BusConfig.defaults none (MemoryEngine.ofSegment { Segment.bare with
    slaves := [
      { SimulatedSlave.plain with
        objects := [object]
        mailbox := [(⟨0x1c00, 0⟩, [.data [2]])] },
      { SimulatedSlave.plain with listError := some ⟨.sdoInfo, "no mailbox", none, none⟩ },
      { SimulatedSlave.plain with
        objects := [object, object]
        descriptionError := some (1, ⟨.sdoInfo, "toggle bit", none, none⟩) },
      { SimulatedSlave.plain with objects := [object] }] })

theorem configure_classifies_mixedMaster :
    ∃ after, configure mixedMaster = .ok () after ∧
      (∀ slave < 4, ∃ listing,
        (mixedMaster.engine.segment.slaves.map SimulatedSlave.listing)[slave]? = some listing ∧
          Discovery.ShowsAll listing.answers listing.infos ∧
          Classified after.caches slave listing) ∧
      after.dictionary.positions = [0, 2, 3] ∧ after.maps.map Prod.fst = [0] ∧
      after.discoveryFaults.map Prod.fst = [1, 2, 3] := by
  have succeeds : result? (configure mixedMaster) = some () := by decide +kernel
  have positions : (final (configure mixedMaster)).dictionary.positions = [0, 2, 3] := by
    decide +kernel
  have maps : (final (configure mixedMaster)).maps.map Prod.fst = [0] := by decide +kernel
  have faults : (final (configure mixedMaster)).discoveryFaults.map Prod.fst = [1, 2, 3] := by
    decide +kernel
  obtain ⟨after, configured⟩ := exists_ok_of_result? succeeds
  rw [configured] at positions maps faults
  exact ⟨after, configured, (configure_classifies configured).1, positions, maps, faults⟩

end Classes

end Master

end Fieldbus
