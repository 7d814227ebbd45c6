import Fieldbus.Engine.Recorded
import Fieldbus.Stack.Basic

/-!
# Recorded calls to a frame stack
-/

namespace Fieldbus

inductive StackCall where
  | bind (adapter : Text)
  | release
  | enumerate
  | mapImage
  | configureClocks
  | writeState (state : Int)
  | writeSlaveState (place : Nat) (state : Int)
  | checkState (state micros : Int)
  | readState
  | objects (place : Nat)
  | upload (place : Nat) (entry : EntryIndex) (size : Int) (complete : Bool) (micros : Int)
  | download (place : Nat) (entry : EntryIndex) (data : Bytes) (complete : Bool) (micros : Int)
  | setOutput (place : Nat) (data : Bytes)
  | send
  | receive (micros : Int)
  | taskStarted
  | taskJoined
  deriving Repr, Inhabited

open Recorded in
instance {σ : Type} [Stack σ] : Stack (Recorded σ StackCall) where
  adapters recorded := Stack.adapters recorded.inner
  bind adapter := noting (.bind adapter) (Stack.bind adapter)
  release recorded := { recorded.note .release with inner := Stack.release recorded.inner }
  enumerate := noting .enumerate Stack.enumerate
  mapImage := noting .mapImage Stack.mapImage
  configureClocks := noting .configureClocks Stack.configureClocks
  slaves recorded := Stack.slaves recorded.inner
  writeState state := noting (.writeState state) (Stack.writeState state)
  writeSlaveState place state :=
    noting (.writeSlaveState place state) (Stack.writeSlaveState place state)
  checkState state micros := noting (.checkState state micros) (Stack.checkState state micros)
  readState := noting .readState Stack.readState
  objects place := noting (.objects place) (Stack.objects place)
  entries place object := quietly (Stack.entries place object)
  upload place entry size complete micros :=
    noting (.upload place entry size complete micros)
      (Stack.upload place entry size complete micros)
  download place entry data complete micros :=
    noting (.download place entry data complete micros)
      (Stack.download place entry data complete micros)
  setOutput recorded place data :=
    { recorded.note (.setOutput place data) with
      inner := Stack.setOutput recorded.inner place data }
  send recorded := { recorded.note .send with inner := Stack.send recorded.inner }
  receive micros := noting (.receive micros) (Stack.receive micros)
  expectedWkc recorded := Stack.expectedWkc recorded.inner
  now recorded := Stack.now recorded.inner
  wait recorded seconds := { recorded with inner := Stack.wait recorded.inner seconds }
  taskStarted recorded :=
    { recorded.note .taskStarted with inner := Stack.taskStarted recorded.inner }
  taskJoined recorded :=
    { recorded.note .taskJoined with inner := Stack.taskJoined recorded.inner }

end Fieldbus
