import Fieldbus.Proofs.Pdo.Transcript
import Fieldbus.Proofs.Segment.Passing
import Fieldbus.Proofs.Segment.Uploads

/-!
# Steady mailboxes

The mailbox of a simulated slave is steady if no entry has more than one answer.  An upload from
such a slave returns what the table stores and leaves every entry as it is, so that all answers
of a transcript are those of one table.
-/

namespace Fieldbus

open Fieldbus.Action

/-- What the mailbox of a simulated slave holds. -/
abbrev MailboxTable := Table EntryIndex (Script MailboxItem)

namespace Table

/-- No entry has more than one answer. -/
def Steady (table : MailboxTable) : Prop :=
  ∀ entry script, table.get? entry = some script → script.length ≤ 1

/-- The unsigned number that an entry stores in its first `width` bytes. -/
def number? (table : MailboxTable) (entry : EntryIndex) (width : Nat) : Option Nat :=
  match table.get? entry with
  | some [.data content] =>
      if content.length < width then none else some (Bytes.toNat (content.take width))
  | _ => none

variable {table : MailboxTable} {entry : EntryIndex}

theorem steady_of_forall_mem (short : ∀ pair ∈ table, pair.2.length ≤ 1) : table.Steady := by
  intro entry script held
  exact short _ (mem_of_get? held)

theorem number?_of_stored {content : Bytes} (stored : table.get? entry = some [.data content])
    (width : Nat) : table.number? entry width =
      if content.length < width then none else some (Bytes.toNat (content.take width)) := by
  simp only [number?, stored]

theorem number?_congr {other : MailboxTable} (same : table.get? entry = other.get? entry)
    (width : Nat) : table.number? entry width = other.number? entry width := by
  simp only [number?, same]

end Table

theorem SimulatedSlave.nextItem_of_steady {slave after : SimulatedSlave} {entry : EntryIndex}
    {content : Bytes} (steady : slave.mailbox.Steady)
    (answered : slave.nextItem entry = (.data content, after)) :
    slave.mailbox.get? entry = some [.data content] ∧
      ∀ other, after.mailbox.get? other = slave.mailbox.get? other := by
  cases held : slave.mailbox.get? entry with
  | none =>
      rw [nextItem, held] at answered
      cases answered
  | some script =>
      have short := steady entry script held
      rw [nextItem, held] at answered
      cases script with
      | nil => cases answered
      | cons item rest =>
          cases rest with
          | nil =>
              cases answered
              exact ⟨rfl, get?_put_same held⟩
          | cons next more => simp at short

namespace Segment

theorem slave?_setSlave {segment : Segment} {slave : Int} {place : Nat}
    (located : segment.place? slave = some place) (present : (segment.slave? slave).isSome)
    (replacement : SimulatedSlave) :
    (segment.setSlave place replacement).slave? slave = some replacement := by
  have samePlace : (segment.setSlave place replacement).place? slave = some place := by
    rw [← located, place?, place?, setSlave, List.length_set]
  rw [slave?, located, Option.bind_some, isSome_getElem?] at present
  rw [slave?, samePlace, Option.bind_some, setSlave]
  exact List.getElem?_set_self present

end Segment

namespace MemoryEngine

variable {engine after : MemoryEngine} {slave : Int} {table : MailboxTable}

/-- The mailbox of a slave stores what a table does. -/
def Stores (slave : Int) (table : MailboxTable) (engine : MemoryEngine) : Prop :=
  ∃ found, engine.segment.slave? slave = some found ∧
    ∀ entry, found.mailbox.get? entry = table.get? entry

theorem slaveAt_eq_ok {place : Nat} {found : SimulatedSlave}
    (located : slaveAt slave engine = .ok (place, found) after) :
    engine.segment.place? slave = some place ∧ engine.segment.slave? slave = some found ∧
      after = engine := by
  rw [slaveAt, bind_of_ok (get_apply engine)] at located
  cases placeEq : engine.segment.place? slave with
  | none =>
      rw [placeEq] at located
      cases located
  | some place =>
      cases foundEq : engine.segment.slave? slave with
      | none =>
          rw [placeEq, foundEq] at located
          cases located
      | some found =>
          rw [placeEq, foundEq] at located
          cases located
          exact ⟨rfl, rfl, rfl⟩

/-- An upload from a slave with a steady mailbox returns what is stored, which stays stored. -/
theorem upload_of_steady {entry : EntryIndex} {content : Bytes} (steady : table.Steady)
    (stores : Stores slave table engine)
    (uploaded : upload slave entry false engine = .ok content after) :
    table.get? entry = some [.data content] ∧ Stores slave table after := by
  obtain ⟨found, present, same⟩ := stores
  obtain ⟨⟨place, other⟩, reached, located, waitRan⟩ := bind_eq_ok_iff.mp uploaded
  obtain ⟨placeEq, foundEq, rfl⟩ := slaveAt_eq_ok located
  cases present.symm.trans foundEq
  obtain ⟨_, waited, passed, answerRan⟩ := bind_eq_ok_iff.mp waitRan
  obtain ⟨segment, passedEq, rfl⟩ := within_eq_ok_iff.mp passed
  have slavesEq : Keep Segment.slaves reached.segment segment :=
    Segment.moves_passUpload.of_ok passedEq
  have placed : segment.place? slave = some place := by
    rw [← placeEq, Segment.place?, Segment.place?, slavesEq]
  have kept : segment.slave? slave = some found := by
    rw [← present, Segment.slave?, Segment.slave?, placed, placeEq, slavesEq]
  have steadyFound : found.mailbox.Steady := by
    intro entry script held
    exact steady entry script ((same entry).symm.trans held)
  cases answered : found.answer entry false with
  | mk item replacement =>
      rw [answered] at answerRan
      obtain ⟨_, changed, ⟨⟩, contentRan⟩ := bind_eq_ok_iff.mp answerRan
      cases item with
      | data bytes =>
          cases contentRan
          obtain ⟨stored, keeps⟩ := SimulatedSlave.nextItem_of_steady steadyFound answered
          refine ⟨(same entry).symm.trans stored, replacement, ?_, ?_⟩
          · exact Segment.slave?_setSlave placed (Option.isSome_of_eq_some kept) replacement
          · intro other
            exact (keeps other).trans (same other)
      | missing => cases contentRan
      | error error => cases contentRan

theorem Stores.of_leads {timeout : Number} {transcript : Transcript} (steady : table.Steady)
    (stores : Stores slave table engine)
    (leads : Transcript.Leads slave timeout engine transcript after) :
    Stores slave table after := by
  induction leads with
  | nil => exact stores
  | cons answered _ ih => exact ih (upload_of_steady steady stores answered).2

end MemoryEngine

namespace Layout

open MemoryEngine

variable {slave : Int} {table : MailboxTable} {timeout : Number}

theorem readUnsigned_of_steady {entry : EntryIndex} {width value : Nat}
    {session after : Session MemoryEngine} (steady : table.Steady)
    (stores : Stores slave table session.engine)
    (ran : readUnsigned slave entry width timeout session = .ok value after) :
    table.number? entry width = some value ∧ Stores slave table after.engine := by
  obtain ⟨content, between, asked, rest⟩ := bind_eq_ok_iff.mp ran
  obtain ⟨engine, answered, rfl⟩ := Session.ask_eq_ok_iff.mp asked
  obtain ⟨stored, kept⟩ := upload_of_steady steady stores answered
  by_cases short : content.length < width
  · simp [short] at rest
  · simp only [short, if_false, pure_eq_ok_iff] at rest
    obtain ⟨rfl, rfl⟩ := rest
    exact ⟨(Table.number?_of_stored stored width).trans (if_neg short), kept⟩

end Layout

end Fieldbus
