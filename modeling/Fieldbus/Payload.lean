import Fieldbus.Json.Basic
import Fieldbus.Number.Decimal
import Fieldbus.Text.Quoted

/-!
# Payloads

What a caller may hand over where a value or a setting is expected: a payload of any
kind.  Whoever takes it decides whether the kind fits.  Documents hold payloads of
most kinds; bytes come from callers only.
-/

namespace Fieldbus

inductive Payload where
  | none
  | bool (value : Bool)
  | int (value : Int)
  | real (value : Binary64)
  | text (value : Text)
  | bytes (content : Bytes)
  /-- Bytes in a buffer that its owner may change; it encodes as its bytes. -/
  | buffer (content : Bytes)
  | list (items : List Payload)
  /-- Payloads under names, in the order of their first appearance. -/
  | record (fields : List (Text × Payload))
  deriving Inhabited, Repr

namespace Payload

mutual

def ofJson : Json → Payload
  | .null => none
  | .bool value => bool value
  | .int value => int value
  | .real value => real value
  | .text value => text value
  | .array items => list (ofItems items)
  | .object fields => record (ofFields fields)

def ofItems : List Json → List Payload
  | [] => []
  | item :: rest => ofJson item :: ofItems rest

def ofFields : List (Text × Json) → List (Text × Payload)
  | [] => []
  | (name, value) :: rest => (name, ofJson value) :: ofFields rest

end

/-- Whether a payload counts as set: neither none, false, zero nor empty. -/
def isSet : Payload → Bool
  | none => false
  | bool value => value
  | int value => value ≠ 0
  | real value => value.magnitude ≠ 0
  | text value => !value.isEmpty
  | bytes content | buffer content => !content.isEmpty
  | list items => !items.isEmpty
  | record fields => !fields.isEmpty

mutual

def shown : Payload → String
  | none => "None"
  | bool value => if value then "True" else "False"
  | int value => toString value
  | real value => Decimal.shortest value
  | text value => Quoted.text value
  | bytes content => Quoted.bytes content
  | buffer content => "bytearray(" ++ Quoted.buffer content ++ ")"
  | list items => "[" ++ ", ".intercalate (shownItems items) ++ "]"
  | record fields => "\x7b" ++ ", ".intercalate (shownFields fields) ++ "\x7d"

def shownItems : List Payload → List String
  | [] => []
  | item :: rest => shown item :: shownItems rest

def shownFields : List (Text × Payload) → List String
  | [] => []
  | (name, value) :: rest => (Quoted.text name ++ ": " ++ shown value) :: shownFields rest

end

/-- A payload as a part of a sentence; a text stands for itself. -/
def words : Payload → Text
  | text value => value
  | value => value.shown

end Payload

end Fieldbus
