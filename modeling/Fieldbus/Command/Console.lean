import Fieldbus.Command.Arguments
import Fieldbus.Master.Operation
import Fieldbus.Stack.StackEngine
import Fieldbus.Text.Lines

/-!
# Consoles

A console runs a program with a master and collects what it prints.
-/

namespace Fieldbus

structure Console (ε : Type) where
  master : Master ε
  /-- The texts that were printed, each of which ends a line. -/
  printed : Array Text
  deriving Inhabited

namespace Console

variable {ε α : Type}

def masterPart : Part (Console ε) (Master ε) where
  get console := console.master
  set console master := { console with master }

def withMaster (action : Action (Master ε) α) : Action (Console ε) α :=
  Action.within masterPart action

/-- Print a text, which may have several lines. -/
def print (text : Text) : Action (Console ε) Unit :=
  modify fun console => { console with printed := console.printed.push text }

def printAll : List Text → Action (Console ε) Unit
  | [] => pure ()
  | text :: rest => do
      print text
      printAll rest

end Console

inductive Ending where
  | done
  | exit (code : Nat)
  | fault (fault : Fault)
  deriving Repr, Inhabited

structure Outcome where
  printed : List Text
  notices : List Notice
  ending : Ending
  deriving Repr, Inhabited

namespace Outcome

/-- A program that stopped before it did anything. -/
def early (ending : Ending) : Outcome := ⟨[], [], ending⟩

def printing (text : Text) : Outcome := ⟨[text], [], .done⟩

def output (outcome : Outcome) : Text :=
  outcome.printed.flatMap (· ++ "\n")

def lines (outcome : Outcome) : List Text :=
  outcome.output.lines

def ofRun {ε : Type} (master : Master ε) (program : Action (Console ε) Unit) : Outcome :=
  let outcome (console : Console ε) (ending : Ending) : Outcome :=
    ⟨console.printed.toList, console.master.session.notices.toList, ending⟩
  match program ⟨master, #[]⟩ with
  | .ok _ console => outcome console .done
  | .error fault console => outcome console (.fault fault)

end Outcome

end Fieldbus
