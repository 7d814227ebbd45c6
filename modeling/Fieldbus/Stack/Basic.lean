import Fieldbus.Engine.Basic

/-!
# Frame stacks

A frame stack sends and receives the frames of a bus.  It knows one open master at
a time, fails with errors of its own, and takes timeouts in microseconds.
-/

namespace Fieldbus

/-- An object as the stack lists it: its place in the list and its description.  An
object without entries carries its own bit length and access word. -/
structure StackObject where
  item : Nat
  index : Int
  typeCode : Int
  objectCode : Int
  name : ReportedName
  bitLength : Int
  access : Int
  entries : List EntryDescription
  deriving DecidableEq, Repr, Inhabited

/-- What the stack shows of a slave. -/
structure StackSlave where
  name : ReportedName
  vendor : Int
  product : Int
  revision : Int
  state : Int
  alStatus : Int
  output : Bytes
  input : Bytes
  deriving DecidableEq, Repr, Inhabited

class Stack (σ : Type) where
  /-- The adapters with their descriptions. -/
  adapters : σ → List (ReportedName × ReportedName)
  bind : (adapter : Text) → Action σ Unit
  release : σ → σ
  enumerate : Action σ Int
  mapImage : Action σ Int
  /-- Whether any slave has a clock. -/
  configureClocks : Action σ Bool
  slaves : σ → List StackSlave
  /-- Request a state of all slaves; the result is the working counter. -/
  writeState : (state : Int) → Action σ Int
  /-- Request a state of one slave. -/
  writeSlaveState : (place : Nat) → (state : Int) → Action σ Int
  checkState : (state micros : Int) → Action σ Int
  readState : Action σ Int
  objects : (place : Nat) → Action σ (List StackObject)
  entries : (place : Nat) → (object : StackObject) → Action σ (List EntryDescription)
  upload : (place : Nat) → (entry : EntryIndex) → (size : Int) → (complete : Bool) →
    (micros : Int) → Action σ Bytes
  download : (place : Nat) → (entry : EntryIndex) → (data : Bytes) → (complete : Bool) →
    (micros : Int) → Action σ Unit
  setOutput : σ → (place : Nat) → Bytes → σ
  send : σ → σ
  /-- Receive the frame of an exchange; the result is the working counter. -/
  receive : (micros : Int) → Action σ Int
  expectedWkc : σ → Int
  now : σ → Binary64
  wait : σ → Binary64 → σ
  taskStarted : σ → σ
  taskJoined : σ → σ

end Fieldbus
