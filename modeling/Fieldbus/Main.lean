import Fieldbus.Command.Programs
import Fieldbus.Segment.Description
import Fieldbus.Segment.Stack

/-!
# The command line

Runs a program on a simulated segment.  The first argument names the program and the
others are its own; standard input holds the description of the segment.  What the
program prints goes to standard output, and its notices go to standard error.
-/

namespace Fieldbus

namespace Program

/-- Run the program with a given name.  `content` gives the content of a file, if it
exists. -/
def run? (segment : Segment) (content : Text → Option Bytes) (name : String)
    (arguments : List Text) : Option Outcome :=
  match name with
  | "benchmark" => some (runBenchmark segment arguments)
  | "dictionary" => some (runListDictionary segment arguments)
  | "objects" => some (runReadObjects segment arguments)
  | "display" => some (runDisplay segment content arguments)
  | _ => none

end Program

namespace Ending

def code : Ending → Nat
  | done => 0
  | exit code => code
  | fault _ => 1

end Ending

end Fieldbus

open Fieldbus

/-- The content of a file, if it can be read. -/
def readContent (path : String) : IO (Option Bytes) := do
  try
    let content ← IO.FS.readBinFile path
    return some content.toList
  catch _ => return none

/-- Run the program that the first argument names. -/
def main (arguments : List String) : IO UInt32 := do
  let name :: own := arguments
    | IO.eprintln "usage: fieldbus benchmark|dictionary|objects|display [ARGUMENT ...]"
      return 2
  let files ← own.mapM fun path => do return (Text.ofString path, ← readContent path)
  let content (path : Text) : Option Bytes := (files.lookup path).join
  let description ← (← IO.getStdin).readToEnd
  let .ok document := Json.read description.toList
    | IO.eprintln "the description of the segment is no document"
      return 2
  let some outcome :=
      Program.run? (Description.segment document) content name (own.map Text.ofString)
    | IO.eprintln "there is no such program"
      return 2
  for notice in outcome.notices do
    IO.eprintln
      (notice.level.name ++ ":" ++ notice.source.name ++ ":" ++ notice.text.toString)
  IO.print outcome.output.toString
  match outcome.ending with
  | .fault fault => IO.eprintln fault.message.toString
  | _ => pure ()
  return UInt32.ofNat outcome.ending.code
