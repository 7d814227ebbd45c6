import Fieldbus.Proofs.Master.Reachable
import Fieldbus.Proofs.Pdo.Resolve

/-!
# The maps of a reachable master

Only configuration passes change the maps of a master: they forget the maps of the last
pass and keep those that they resolve.  So every map of a reachable master is the result
of a layout, and with that gapless.
-/

namespace Fieldbus

namespace Master

open Fieldbus.Action

variable {ε : Type}

def AllGapless (maps : Table Int PdoMap) : Prop :=
  ∀ slave map, maps.get? slave = some map → map.Gapless

def MapsGapless (master : Master ε) : Prop :=
  AllGapless master.maps

theorem allGapless_nil : AllGapless [] := by
  intro slave map found
  cases found

theorem AllGapless.put {maps : Table Int PdoMap} {slave : Int} {map : PdoMap}
    (known : AllGapless maps) (gapless : map.Gapless) : AllGapless (maps.put slave map) := by
  intro other found look
  rw [Table.get?_put] at look
  by_cases same : slave = other
  · rw [if_pos same] at look
    cases look
    exact gapless
  · rw [if_neg same] at look
    exact known other found look

instance : AllowsSession (Keep (Master.maps (ε := ε))) where
  session _ _ := rfl

instance : AllowsSession (Preserve (MapsGapless (ε := ε))) where
  session _ _ := id

instance [Engine ε] : AllowsStates (Preserve (MapsGapless (ε := ε))) where
  lastWkc _ _ := id
  okCount _ _ := id
  errorCount _ _ := id
  handles _ _ := id
  running _ _ := id
  connects _ := moves_ask _
  disconnects := moves_ask _
  opened _ _ := id
  inOp _ _ := id

variable [Engine ε]

theorem resolveAll_gapless {dictionary : ObjectDictionary} {slaves : List Int}
    {maps found : Table Int PdoMap} {faults newFaults : Table Int Fault}
    {master after : Master ε} (known : AllGapless maps)
    (resolved : resolveAll dictionary slaves maps faults master = .ok (found, newFaults) after) :
    AllGapless found := by
  induction slaves generalizing maps faults master with
  | nil =>
      cases resolved
      exact known
  | cons slave rest ih =>
      rw [resolveAll] at resolved
      split at resolved
      · exact ih known resolved
      · obtain ⟨⟨nextMaps, nextFaults⟩, between, caught, more⟩ := bind_eq_ok_iff.mp resolved
        refine ih ?_ more
        rcases catching_eq_ok_iff.mp caught with succeeded | ⟨fault, failed, _, _, handled⟩
        · obtain ⟨timeout, waited, _, laid⟩ := bind_eq_ok_iff.mp succeeded
          obtain ⟨map, ended, inner, kept⟩ := bind_eq_ok_iff.mp laid
          cases kept
          obtain ⟨session, laidOut, _⟩ := within_eq_ok_iff.mp inner
          exact known.put (Layout.gapless_of_resolve laidOut)
        · obtain ⟨_, _, _, kept⟩ := bind_eq_ok_iff.mp handled
          cases kept
          exact known

theorem layOut_keeps_gapless : Moves (Preserve MapsGapless) (layOut (ε := ε)) := by
  refine moves_layOut ?_ (moves_ask _)
  intro master _
  exact allGapless_nil

theorem discoverAll_keeps_gapless (count : Nat) :
    Moves (Preserve MapsGapless) (discoverAll (ε := ε) count) := by
  refine Moves.bind (moves_discoverFrom _ _ _) ?_
  intro findings
  refine Moves.bind_of_ok (moves_resolveAll _ _ _ _) ?_
  intro master found between resolved _
  exact resolveAll_gapless allGapless_nil resolved

theorem Reachable.mapsGapless {master : Master ε} (reachable : Reachable master) :
    MapsGapless master := by
  apply reachable.invariant
  · intro config pdoConfig engine
    exact allGapless_nil
  · intro command
    exact moves_perform (moves_configure layOut_keeps_gapless discoverAll_keeps_gapless) command

end Master

end Fieldbus
