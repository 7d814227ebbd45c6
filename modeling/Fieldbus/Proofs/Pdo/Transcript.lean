import Fieldbus.Pdo.Layout
import Fieldbus.Proofs.Outcome

/-!
# Transcripts of a layout

What a slave answered while its layout was resolved.  The layout depends on the engine
through these answers only, so its laws are stated of the transcript and hold for every
engine, also for one that answers the same question differently the next time.  What they
tell of assignments, objects and entries is a relation for each level, without the walk.
-/

namespace Fieldbus

/-- An upload of one entry with its answer. -/
structure Upload where
  entry : EntryIndex
  size : Nat
  data : Bytes
  deriving DecidableEq, Repr, Inhabited

abbrev Transcript := List Upload

namespace Transcript

variable {ε : Type} [Engine ε] {slave : Int} {timeout : Number}

/-- An engine answers the uploads of a transcript one after the other. -/
inductive Leads (slave : Int) (timeout : Number) : ε → Transcript → ε → Prop
  | nil (engine : ε) : Leads slave timeout engine [] engine
  | cons {engine next last : ε} {upload : Upload} {rest : Transcript}
      (answered : Engine.upload slave upload.entry false upload.size timeout engine =
        .ok upload.data next)
      (more : Leads slave timeout next rest last) :
      Leads slave timeout engine (upload :: rest) last

theorem Leads.append {first second third : ε} {before after : Transcript}
    (one : Leads slave timeout first before second)
    (two : Leads slave timeout second after third) :
    Leads slave timeout first (before ++ after) third := by
  induction one with
  | nil => exact two
  | cons answered _ ih => exact .cons answered (ih two)

/-- The number in the first answer about an entry. -/
def number? (transcript : Transcript) (entry : EntryIndex) (width : Nat) : Option Nat :=
  (transcript.find? (·.entry = entry)).map fun upload => Bytes.toNat (upload.data.take width)

def typeCount? (transcript : Transcript) : Option Nat :=
  transcript.number? ⟨Layout.typesIndex, 0⟩ 1

/-- The code of the type that the slave reported for a sync manager. -/
def typeCode? (transcript : Transcript) (sm : Nat) : Option Nat :=
  transcript.number? ⟨Layout.typesIndex, (sm + 1 : Nat)⟩ 1

theorem number?_cons (upload : Upload) (rest : Transcript) (entry : EntryIndex) (width : Nat) :
    number? (upload :: rest) entry width =
      if upload.entry = entry then some (Bytes.toNat (upload.data.take width))
      else rest.number? entry width := by
  by_cases same : upload.entry = entry <;> simp [number?, same]

theorem number?_append_of_isSome {before : Transcript} {entry : EntryIndex} {width : Nat}
    (known : (before.number? entry width).isSome) (after : Transcript) :
    number? (before ++ after) entry width = before.number? entry width := by
  simp only [number?, Option.isSome_map] at known ⊢
  rw [List.find?_append, Option.or_of_isSome known]

end Transcript

namespace Layout

/-- Results that a transcript tells one after the other, each of them in its own uploads. -/
inductive Told {ι α : Type} (tells : ι → Transcript → α → Prop) :
    List ι → Transcript → List α → Prop
  | nil : Told tells [] [] []
  | cons {item : ι} {items : List ι} {first rest : Transcript} {result : α} {results : List α}
      (told : tells item first result) (more : Told tells items rest results) :
      Told tells (item :: items) (first ++ rest) (result :: results)

theorem Told.append {ι α : Type} {tells : ι → Transcript → α → Prop} {items others : List ι}
    {before after : Transcript} {results more : List α} (one : Told tells items before results)
    (two : Told tells others after more) :
    Told tells (items ++ others) (before ++ after) (results ++ more) := by
  induction one with
  | nil => exact two
  | cons told _ ih =>
      rw [List.append_assoc]
      exact .cons told ih

theorem Told.eq_nil {ι α : Type} {tells : ι → Transcript → α → Prop} {items : List ι}
    {transcript : Transcript} (told : Told tells items transcript []) :
    items = [] ∧ transcript = [] := by
  cases told
  exact ⟨rfl, rfl⟩

/-- A single upload that tells a number. -/
def TellsNumber (entry : EntryIndex) (width : Nat) (transcript : Transcript) (value : Nat) :
    Prop :=
  ∃ data, transcript = [⟨entry, width, data⟩] ∧ width ≤ data.length ∧
    value = Bytes.toNat (data.take width)

/-- A mapping word that tells what entry is mapped, and with how many bits. -/
def TellsEntry (pdo : Int) (subindex : Nat) (transcript : Transcript) (mapped : MappedEntry) :
    Prop :=
  ∃ word : Nat, TellsNumber ⟨pdo, subindex⟩ 4 transcript word ∧
    (mapped.entry, mapped.bitLength) = unpackMapping word

/-- Uploads that tell the object which is assigned at a subindex: its index, how many entries
it maps, and each of them.  An object that maps none is left out. -/
inductive TellsPdo (sm subindex : Nat) : Transcript → Option Pdo → Prop
  | left {listed counted : Transcript} {index : Nat}
      (lists : TellsNumber ⟨assignmentIndex sm, subindex⟩ 2 listed index)
      (counts : TellsNumber ⟨index, 0⟩ 1 counted 0) :
      TellsPdo sm subindex (listed ++ counted) none
  | mapping {listed counted words : Transcript} {index count : Nat} {pdo : Pdo}
      (lists : TellsNumber ⟨assignmentIndex sm, subindex⟩ 2 listed index)
      (counts : TellsNumber ⟨index, 0⟩ 1 counted count)
      (maps : Told (TellsEntry index) (List.range' 1 count) words pdo.entries)
      (named : pdo.index = index ∧ pdo.sm = sm) :
      TellsPdo sm subindex (listed ++ (counted ++ words)) (some pdo)

/-- Uploads that tell how many objects are assigned to a sync manager, and each of them. -/
def TellsAssignment (sm : Nat) (transcript : Transcript) (assignment : PdoAssignment) : Prop :=
  ∃ counted words count pdos, transcript = counted ++ words ∧
    TellsNumber ⟨assignmentIndex sm, 0⟩ 1 counted count ∧
    Told (TellsPdo sm) (List.range' 1 count) words pdos ∧
    assignment.sm = sm ∧ assignment.pdos = pdos.flatMap Option.toList

end Layout

end Fieldbus
