import Fieldbus.Proofs.Outcome
import Fieldbus.Proofs.Tables
import Fieldbus.Segment.MemoryEngine
import Mathlib.Data.List.Sort
import Mathlib.Order.Basic

/-!
# Uploads from a simulated slave

What the mailbox of a simulated slave answers when its table holds one datum for each
subindex of an object: each entry with its datum, and the whole object with all data in
the order of the subindices.
-/

namespace Fieldbus

namespace SimulatedSlave

variable {slave : SimulatedSlave} {index : Int} {entry : EntryIndex} {data : Bytes}

theorem nextItem_of_only (held : slave.mailbox.get? entry = some [.data data]) :
    slave.nextItem entry = (.data data,
      { slave with mailbox := slave.mailbox.put entry [.data data] }) := by
  simp only [nextItem, held, Option.map_some, Script.next]

theorem get?_put_same {table : Table EntryIndex (Script MailboxItem)}
    {items : Script MailboxItem} (held : table.get? entry = some items) (other : EntryIndex) :
    (table.put entry items).get? other = table.get? other := by
  rw [Table.get?_put]
  by_cases same : entry = other
  · rw [if_pos same, ← same, held]
  · rw [if_neg same]

theorem nextData_of_only {content : Int → Bytes} {subindices : List Int}
    (held : ∀ subindex ∈ subindices,
      slave.mailbox.get? ⟨index, subindex⟩ = some [.data (content subindex)]) :
    (nextData index subindices slave).1 = subindices.map content := by
  induction subindices generalizing slave with
  | nil => rfl
  | cons subindex rest ih =>
      have first := held subindex List.mem_cons_self
      rw [nextData, nextItem_of_only first]
      let after : SimulatedSlave :=
        { slave with mailbox := slave.mailbox.put ⟨index, subindex⟩ [.data (content subindex)] }
      have kept : ∀ other ∈ rest,
          after.mailbox.get? ⟨index, other⟩ = some [.data (content other)] := by
        intro other member
        rw [get?_put_same first]
        exact held other (List.mem_cons_of_mem _ member)
      have more := ih kept
      simp only [after] at more
      simp only [more, List.map_cons]

/-- The table holds one datum for each of the first subindices of an object, under one key
each, and nothing else of it. -/
structure HoldsObject (table : Table EntryIndex (Script MailboxItem)) (index : Int)
    (parts : List Bytes) : Prop where
  nodup : (table.map Prod.fst).Nodup
  held : ∀ (place : Nat) (part : Bytes), parts[place]? = some part →
    table.get? ⟨index, place⟩ = some [.data part]
  only : ∀ key ∈ table.map Prod.fst, key.index = index →
    ∃ place : Nat, place < parts.length ∧ key.subindex = place

/-- A table that holds an object and nothing else. -/
def tableOf (index : Int) (parts : List Bytes) : Table EntryIndex (Script MailboxItem) :=
  (List.range parts.length).map fun place : Nat =>
    (⟨index, place⟩, [.data (parts[place]?.getD [])])

theorem holdsObject_tableOf (index : Int) (parts : List Bytes) :
    HoldsObject (tableOf index parts) index parts := by
  have nodup : ((tableOf index parts).map Prod.fst).Nodup := by
    rw [tableOf, List.map_map]
    refine List.Nodup.map ?_ List.nodup_range
    intro first second same
    exact Int.ofNat.inj (EntryIndex.mk.inj same).2
  refine ⟨nodup, ?_, ?_⟩
  · intro place part found
    apply Table.get?_of_mem nodup
    have inside := (List.getElem?_eq_some_iff.mp found).1
    refine List.mem_map.mpr ⟨place, List.mem_range.mpr inside, ?_⟩
    rw [found, Option.getD_some]
  · intro key member _
    rw [tableOf, List.map_map] at member
    obtain ⟨place, inside, rfl⟩ := List.mem_map.mp member
    exact ⟨place, List.mem_range.mp inside, rfl⟩

theorem subindices_eq {parts : List Bytes} (holds : HoldsObject slave.mailbox index parts) :
    slave.subindices index = (List.range parts.length).map fun place : Nat => (place : Int) := by
  have keys : ((slave.mailbox.filter (·.1.index = index)).map (·.1.subindex)) =
      ((slave.mailbox.map Prod.fst).filter (·.index = index)).map EntryIndex.subindex := by
    rw [List.filter_map, List.map_map]
    rfl
  have unordered : (((slave.mailbox.map Prod.fst).filter (·.index = index)).map
      EntryIndex.subindex).Perm ((List.range parts.length).map fun place : Nat => (place : Int)) := by
    apply (List.perm_ext_iff_of_nodup ?_ ?_).mpr
    · intro subindex
      constructor
      · intro member
        obtain ⟨key, kept, rfl⟩ := List.mem_map.mp member
        obtain ⟨listed, sameIndex⟩ := List.mem_filter.mp kept
        obtain ⟨place, inside, placeEq⟩ := holds.only key listed (by simpa using sameIndex)
        exact List.mem_map.mpr ⟨place, List.mem_range.mpr inside, placeEq.symm⟩
      · intro member
        obtain ⟨place, inside, rfl⟩ := List.mem_map.mp member
        have found := holds.held place _ (List.getElem?_eq_getElem (List.mem_range.mp inside))
        refine List.mem_map.mpr ⟨⟨index, place⟩, ?_, rfl⟩
        exact List.mem_filter.mpr ⟨Table.mem_keys_of_get? found, by simp⟩
    · refine List.Nodup.map_on ?_ (holds.nodup.filter _)
      intro first firstKept second secondKept same
      have firstIndex := (List.mem_filter.mp firstKept).2
      have secondIndex := (List.mem_filter.mp secondKept).2
      simp only [decide_eq_true_eq] at firstIndex secondIndex
      cases first
      cases second
      simp_all
    · refine List.Nodup.map ?_ List.nodup_range
      intro first second same
      exact Int.ofNat.inj same
  rw [subindices, keys]
  apply List.Perm.eq_of_pairwise' (r := fun first second : Int => first ≤ second)
  · have sorted := List.pairwise_mergeSort' (fun first second : Int => first ≤ second)
      (((slave.mailbox.map Prod.fst).filter (·.index = index)).map EntryIndex.subindex)
    exact sorted
  · rw [List.pairwise_map]
    refine List.pairwise_lt_range.imp ?_
    intro first second ordered
    exact Int.ofNat_le.mpr (Nat.le_of_lt ordered)
  · exact (List.mergeSort_perm _ _).trans unordered

/-- A complete upload of such an object is all of its data, if it has any entry. -/
theorem nextComplete_of_holds {parts : List Bytes}
    (holds : HoldsObject slave.mailbox index parts)
    (plain : slave.complete.get? index = none) :
    (slave.nextComplete index).1 =
      if parts.isEmpty then .missing else .data parts.flatten := by
  have listed : (nextData index (slave.subindices index) slave).1 = parts := by
    have held : ∀ subindex ∈ slave.subindices index, slave.mailbox.get? ⟨index, subindex⟩ =
        some [.data ((parts[subindex.toNat]?).getD [])] := by
      intro subindex member
      rw [subindices_eq holds] at member
      obtain ⟨place, inside, rfl⟩ := List.mem_map.mp member
      have within := List.mem_range.mp inside
      have found := holds.held place _ (List.getElem?_eq_getElem within)
      simpa [within] using found
    rw [nextData_of_only held, subindices_eq holds, List.map_map]
    apply List.ext_getElem?
    intro place
    by_cases inside : place < parts.length
    · simp [inside]
    · simp [inside]
  simp only [nextComplete, plain, Option.map_none, listed]

end SimulatedSlave

namespace MemoryEngine

variable {engine after : MemoryEngine} {slave : Int} {place : Nat} {found : SimulatedSlave}
  {entry : EntryIndex} {complete : Bool} {content : Bytes}

theorem slaveAt_of_found (located : engine.segment.place? slave = some place)
    (present : engine.segment.slave? slave = some found) :
    slaveAt slave engine = .ok (place, found) engine := by
  rw [slaveAt, Action.bind_of_ok (Action.get_apply engine), located, present]
  rfl

def withSlave (slave : Int) (simulated : SimulatedSlave) : MemoryEngine :=
  ofSegment { Segment.bare with slaves := List.replicate (slave.natAbs + 1) simulated }

theorem exists_place_withSlave (slave : Int) (simulated : SimulatedSlave) :
    ∃ place, (withSlave slave simulated).segment.place? slave = some place ∧
      (withSlave slave simulated).segment.slave? slave = some simulated := by
  have inside : 0 ≤ (if slave < 0 then slave + (slave.natAbs + 1 : Nat) else slave) ∧
      (if slave < 0 then slave + (slave.natAbs + 1 : Nat) else slave) <
        (slave.natAbs + 1 : Nat) := by
    split
    · omega
    · omega
  have located : (withSlave slave simulated).segment.place? slave =
      some (if slave < 0 then slave + (slave.natAbs + 1 : Nat) else slave).toNat := by
    rw [Segment.place?, withSlave, ofSegment]
    simp only [List.length_replicate, if_pos inside]
  refine ⟨_, located, ?_⟩
  rw [Segment.slave?, located, Option.bind_some, withSlave, ofSegment]
  simp only [List.getElem?_replicate]
  rw [if_pos (by omega)]

theorem exists_secondsOf_zero : ∃ seconds, Segment.secondsOf (.int 0) = .ok seconds := by
  have finite : (Segment.secondsOf (.int 0)).toOption.isSome = true := by
    decide +kernel
  cases outcome : Segment.secondsOf (.int 0) with
  | ok seconds => exact ⟨seconds, rfl⟩
  | error accident =>
      rw [outcome] at finite
      cases finite

theorem passUpload_withSlave (slave : Int) (simulated : SimulatedSlave) :
    ∃ segment, Segment.passUpload (withSlave slave simulated).segment = .ok () segment := by
  obtain ⟨seconds, instant⟩ := exists_secondsOf_zero
  have passed (segment : Segment) :
      Segment.passMicros (.int 0) segment = .ok () (segment.pass seconds) := by
    rw [Segment.passMicros, instant]
    rfl
  have script : (withSlave slave simulated).segment.uploadMicros.next =
      (some (.int 0), [.int 0]) := rfl
  rw [Segment.passUpload, Action.bind_of_ok (Action.get_apply _), script]
  dsimp only [Option.getD_some]
  rw [Action.bind_of_ok (Action.modify_apply _ _), passed]
  exact ⟨_, rfl⟩

theorem fault_of_slaveAt {cause : Fault} (missing : slaveAt slave engine = .error cause after) :
    cause = .accident .position := by
  rw [slaveAt, Action.bind_of_ok (Action.get_apply engine)] at missing
  cases located : engine.segment.place? slave with
  | none =>
      rw [located] at missing
      cases missing
      rfl
  | some place =>
      cases present : engine.segment.slave? slave with
      | none =>
          rw [located, present] at missing
          cases missing
          rfl
      | some found =>
          rw [located, present] at missing
          cases missing

/-- An upload from a slave succeeds exactly if it takes a time in range and the answer of
the slave is data. -/
theorem exists_upload_iff (located : engine.segment.place? slave = some place)
    (present : engine.segment.slave? slave = some found) :
    (∃ after, upload slave entry complete engine = .ok content after) ↔
      (∃ segment, Segment.passUpload engine.segment = .ok () segment) ∧
        (found.answer entry complete).1 = .data content := by
  rw [upload, Action.bind_of_ok (slaveAt_of_found located present)]
  dsimp only
  cases passed : Segment.passUpload engine.segment with
  | error fault segment =>
      have waited : inSegment Segment.passUpload engine =
          .error fault { engine with segment } := by
        unfold inSegment Action.within segmentPart
        simp only [passed]
      rw [Action.bind_of_error waited]
      simp
  | ok result segment =>
      have waited : inSegment Segment.passUpload engine = .ok () { engine with segment } := by
        unfold inSegment Action.within segmentPart
        simp only [passed]
      rw [Action.bind_of_ok waited]
      cases answered : found.answer entry complete with
      | mk item next =>
          cases item with
          | data bytes =>
              constructor
              · rintro ⟨after, uploaded⟩
                cases uploaded
                exact ⟨⟨segment, rfl⟩, rfl⟩
              · rintro ⟨_, same⟩
                cases same
                exact ⟨_, rfl⟩
          | missing =>
              constructor
              · rintro ⟨after, uploaded⟩
                cases uploaded
              · rintro ⟨_, same⟩
                cases same
          | error error =>
              constructor
              · rintro ⟨after, uploaded⟩
                cases uploaded
              · rintro ⟨_, same⟩
                cases same

end MemoryEngine

end Fieldbus
