import Fieldbus.Master.Basic

/-!
# The process image of a master

Reads and writes the values of slaves in the process image, and exchanges the image
with the slaves.
-/

namespace Fieldbus

namespace Master

variable {ε : Type} [Engine ε]

/-- Run one exchange and count it as good or bad by its working counter. -/
def exchange : Action (Master ε) Int := do
  let timeout ← Action.ofAccident (← get).config.recvTimeout
  let wkc ← ask (Engine.exchange (.real timeout))
  modify fun master => { master with lastWkc := wkc }
  let expected ← ask Engine.expectedWkc
  if wkc = expected then modify fun master => { master with okCount := master.okCount + 1 }
  else modify fun master => { master with errorCount := master.errorCount + 1 }
  return wkc

def image : Action (Master ε) Bytes := do
  return Engine.image (← get).engine

def setImage (image : Bytes) : Action (Master ε) Unit :=
  changeEngine (Engine.setImage · image)

def zeroOutputs (slave : Int) : Action (Master ε) Unit := do
  let range ← ask (Engine.outputRange slave)
  setImage (range.write (← image) (Bytes.zeros range.length))

/-- Report a list of notices in order. -/
def reportAll : List Notice → Action (Master ε) Unit
  | [] => pure ()
  | notice :: rest => do
      inSession (Session.report notice)
      reportAll rest

/-- Decode all mapped values of a slave, outputs first. -/
def values (slave : Int) : Action (Master ε) (List (EntryIndex × Value)) := do
  let map ← map slave
  let inputs ← ask (Engine.inputRange slave)
  let outputs ← ask (Engine.outputRange slave)
  let image ← image
  let (values, notices) :=
    map.readValues slave (inputs.read image) (outputs.read image)
  reportAll notices
  return values

/-- Fail as setting a value would fail for its map, without writing. -/
def checkValue (slave : Int) (entry : EntryIndex) (value : Value) : Action (Master ε) Unit := do
  let map ← map slave
  let _ ← Action.ofExcept (map.checkWrite slave entry value)

/-- Write a mapped output value into the image; the next exchange sends it. -/
def setValue (slave : Int) (entry : EntryIndex) (value : Value) : Action (Master ε) Unit := do
  let map ← map slave
  let range ← ask (Engine.outputRange slave)
  let image ← image
  let outputs ← Action.ofExcept (map.write slave (range.read image) entry value)
  setImage (range.write image outputs)

end Master

end Fieldbus
