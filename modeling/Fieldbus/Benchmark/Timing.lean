import Fieldbus.Statistics

/-!
# Timings

What a benchmark measures for one target: a single entry or a whole object.
-/

namespace Fieldbus

/-- What a benchmark reads: one entry, or an object with one upload. -/
inductive Target where
  | entry (address : EntryIndex)
  | object (index : Int)
  deriving DecidableEq, Repr, Inhabited

namespace Target

/-- A target as a log line prints it. -/
def text : Target → String
  | entry address => address.text
  | object index => toString index

/-- A target as a report prints it. -/
def label : Target → String
  | entry address => address.text
  | object index => "0x" ++ Numeral.hex 4 index ++ " (complete)"

/-- The target that a command-line argument names: two hexadecimal numerals with a
colon between them, or one numeral. -/
def ofText? (text : List Char) : Option Target :=
  match text.dropWhile (· ≠ ':') with
  | _ :: subindex => do
      let index ← Numeral.integer? 16 (text.takeWhile (· ≠ ':'))
      let subindex ← Numeral.integer? 16 subindex
      return entry ⟨index, subindex⟩
  | [] => (Numeral.integer? 0 text).map object

end Target

/-- What a read returned: nothing yet, the value of an entry, or the values of an
object, of which some cannot be decoded. -/
inductive Reading where
  | none
  | value (value : Value)
  | values (values : List (Option Value))
  deriving Repr, Inhabited

/-- A reading as a report prints it. -/
def Reading.text : Reading → String
  | none => "None"
  | value single => single.text
  | values items =>
      let item (slot : Option Value) : String := match slot with
        | some decoded => decoded.shown
        | Option.none => "None"
      "[" ++ ", ".intercalate (items.map item) ++ "]"

structure Timing where
  target : Target
  name : ReportedName
  value : Reading
  timesMs : List Binary64
  errors : Int
  lastError : Text
  deriving Repr, Inhabited

namespace Timing

def start (target : Target) (name : ReportedName) : Timing :=
  { target, name, value := .none, timesMs := [], errors := 0, lastError := "" }

def count (timing : Timing) : Nat :=
  timing.timesMs.length

def statistics (timing : Timing) : Except Accident (Option Statistics) :=
  Statistics.of timing.timesMs

def summary (timing : Timing) : Except Accident Text := do
  let label : Text :=
    if timing.name.isEmpty then timing.target.label
    else timing.target.label ++ " " ++ timing.name.shown
  match ← timing.statistics with
  | none =>
      return label ++ s!": no successful read ({timing.errors} failed: " ++
        timing.lastError ++ ")"
  | some statistics =>
      let times := " / ".intercalate
        ([statistics.min, statistics.mean, statistics.max].map (Decimal.fixed 3))
      let failures := if timing.errors = 0 then "" else s!", {timing.errors} failed"
      return label ++ s!" = {timing.value.text}  [{times} ms{failures}]"

end Timing

end Fieldbus
