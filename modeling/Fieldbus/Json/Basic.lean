import Fieldbus.Number.Binary64
import Fieldbus.Table
import Fieldbus.Text.Unit

/-!
# JSON documents

Configuration files are JSON documents.  Whole numbers have any size, numbers
with a point or an exponent are binary64, and texts may hold unpaired
surrogates.  The fields of an object keep the order of their first appearance;
the last value of a repeated field wins.
-/

namespace Fieldbus

inductive Json where
  | null
  | bool (value : Bool)
  | int (value : Int)
  | real (value : Binary64)
  | text (value : Text)
  | array (items : List Json)
  | object (fields : List (Text × Json))
  deriving Inhabited, Repr

namespace Json

mutual

/-- Compare two documents, item by item and field by field. -/
def same : Json → Json → Bool
  | null, null => true
  | bool value, bool other => value = other
  | int value, int other => value = other
  | real value, real other => value = other
  | text value, text other => value = other
  | array items, array others => sameItems items others
  | object fields, object others => sameFields fields others
  | _, _ => false

def sameItems : List Json → List Json → Bool
  | [], [] => true
  | item :: items, other :: others => same item other && sameItems items others
  | _, _ => false

def sameFields : List (Text × Json) → List (Text × Json) → Bool
  | [], [] => true
  | (name, value) :: fields, (otherName, other) :: others =>
      name = otherName && same value other && sameFields fields others
  | _, _ => false

end

mutual

theorem eq_of_same : ∀ {value other : Json}, same value other = true → value = other
  | null, null, _ => rfl
  | bool _, bool _, equal => by simpa [same] using equal
  | int _, int _, equal => by simpa [same] using equal
  | real _, real _, equal => by simpa [same] using equal
  | text _, text _, equal => by simpa [same] using equal
  | array _, array _, equal => congrArg array (eq_of_sameItems equal)
  | object _, object _, equal => congrArg object (eq_of_sameFields equal)

theorem eq_of_sameItems : ∀ {items others : List Json}, sameItems items others = true →
    items = others
  | [], [], _ => rfl
  | item :: items, other :: others, equal => by
      rw [sameItems, Bool.and_eq_true] at equal
      rw [eq_of_same equal.1, eq_of_sameItems equal.2]

theorem eq_of_sameFields : ∀ {fields others : List (Text × Json)},
    sameFields fields others = true → fields = others
  | [], [], _ => rfl
  | (name, value) :: fields, (otherName, other) :: others, equal => by
      simp only [sameFields, Bool.and_eq_true, decide_eq_true_eq] at equal
      rw [equal.1.1, eq_of_same equal.1.2, eq_of_sameFields equal.2]

end

mutual

theorem same_self : ∀ value : Json, same value value = true
  | null => rfl
  | bool _ | int _ | real _ | text _ => by simp [same]
  | array items => sameItems_self items
  | object fields => sameFields_self fields

theorem sameItems_self : ∀ items : List Json, sameItems items items = true
  | [] => rfl
  | item :: items => by rw [sameItems, same_self item, sameItems_self items, Bool.and_self]

theorem sameFields_self : ∀ fields : List (Text × Json), sameFields fields fields = true
  | [] => rfl
  | (name, value) :: fields => by simp [sameFields, same_self value, sameFields_self fields]

end

instance : DecidableEq Json := fun value other =>
  decidable_of_iff (same value other = true)
    ⟨eq_of_same, fun equal => equal ▸ same_self value⟩

/-- The field `name` of an object. -/
def field? (fields : List (Text × Json)) (name : String) : Option Json :=
  Table.get? fields (Text.ofString name)

end Json

end Fieldbus
