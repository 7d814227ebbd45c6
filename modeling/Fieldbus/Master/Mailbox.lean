import Fieldbus.Value.Encoding
import Fieldbus.Master.Basic

/-!
# Mailbox access

Reads and writes entries of a slave through its mailbox, as bytes or as values of the
type that the dictionary gives.
-/

namespace Fieldbus

namespace Master

variable {ε : Type} [Engine ε]

/-- A given timeout, or that of the configuration. -/
def timeoutOr (timeout : Option Number) : Action (Master ε) Number :=
  match timeout with
  | some timeout => pure timeout
  | none => sdoTimeout

/-- Read the bytes of an entry or, with complete access, of an object. -/
def upload (slave : Int) (entry : EntryIndex) (complete : Bool) (size : Int)
    (timeout : Option Number) : Action (Master ε) Bytes := do
  let timeout ← timeoutOr timeout
  ask (Engine.upload slave entry complete size timeout)

def download (slave : Int) (entry : EntryIndex) (data : Bytes) (complete : Bool)
    (timeout : Option Number) : Action (Master ε) Unit := do
  let timeout ← timeoutOr timeout
  ask (Engine.download slave entry complete data timeout)

/-- Whether values of a type take as many bytes as there are. -/
def hasVariableSize (type : Option DataType) : Bool :=
  type = some .string || type = some .octetString || type = some .domain

/-- Read an entry and decode it with its dictionary type. -/
def readEntry (slave : Int) (entry : EntryIndex) (timeout : Option Number) :
    Action (Master ε) Value := do
  let info ← Action.ofExcept ((← get).dictionary.entry slave entry)
  if !info.isDecodable then
    let type : Option DataType ⊕ Int := match info.dataType with
      | some type => .inl (some type)
      | none => .inr info.typeCode
    throw (.codec (.unsupportedType type (.entry info.entry slave)))
  else
    let raw ← upload slave info.entry false (byteCount info.bitLength) timeout
    let bitLength := if hasVariableSize info.dataType then (raw.length : Int) * 8
      else info.bitLength
    Action.ofExcept ((Value.decode info.dataType bitLength raw 0).mapError .codec)

/-- Read the entry at an address that may lack its subindex. -/
def readAddress (slave : Int) (address : EntryAddress) (timeout : Option Number) :
    Action (Master ε) Value := do
  let entry ← Action.ofExcept ((← get).dictionary.locate slave address)
  readEntry slave entry timeout

/-- Decode the slots of an object one after the other from a position on; a slot that
cannot be decoded has no value and takes no bytes. -/
def decodeSlots (raw : Bytes) : (position : Int) → List EntryInfo →
    Except CodecFault (List (Option Value))
  | _, [] => .ok []
  | position, info :: rest =>
      if info.isDecodable then do
        let stop := position + byteCount info.bitLength
        let value ← Value.decode info.dataType info.bitLength (raw.slice position stop) 0
        let more ← decodeSlots raw stop rest
        return some value :: more
      else do
        let more ← decodeSlots raw position rest
        return none :: more

/-- The size to ask for when an object is read with complete access: that of its
largest decodable entry for each of its entries. -/
def completeSize (entries : List EntryInfo) : Int :=
  let sizes := (entries.filter EntryInfo.isDecodable).map fun info => byteCount info.bitLength
  sizes.foldl max 0 * entries.length

/-- Read an object with one upload and decode its entries.  Subindex 0 is left out
unless it is asked for or the object has no other. -/
def readComplete (slave index : Int) (includeFirst : Bool) (timeout : Option Number) :
    Action (Master ε) (List (Option Value)) := do
  let object ← Action.ofExcept ((← get).dictionary.object slave index)
  let raw ← upload slave ⟨index, 0⟩ true (completeSize object.entries) timeout
  let values ← Action.ofExcept ((decodeSlots raw 0 object.entries).mapError .codec)
  return if includeFirst || object.maxSubindex = 0 then values else values.drop 1

/-- Encode a value and write it to an entry. -/
def writeEntry (slave : Int) (entry : EntryIndex) (value : Value) (timeout : Option Number) :
    Action (Master ε) Unit := do
  let data ← Action.ofExcept (value.encode 0)
  download slave entry data false timeout

end Master

end Fieldbus
