/-!
# Ordered tables

A table lists its keys in the order in which they were first put.  Putting a key
again replaces its value and keeps its place.
-/

namespace Fieldbus

abbrev Table (κ α : Type) := List (κ × α)

namespace Table

variable {κ α : Type} [DecidableEq κ]

/-- Put `value` under `key`. -/
def put : Table κ α → κ → α → Table κ α
  | [], key, value => [(key, value)]
  | pair :: rest, key, value =>
      if pair.1 = key then (key, value) :: rest else pair :: put rest key value

def get? : Table κ α → κ → Option α
  | [], _ => none
  | pair :: rest, key => if pair.1 = key then some pair.2 else get? rest key

def has (table : Table κ α) (key : κ) : Bool :=
  (table.get? key).isSome

/-- The table that results from putting the pairs of a list in order. -/
def ofList (pairs : List (κ × α)) : Table κ α :=
  pairs.foldl (fun table pair => table.put pair.1 pair.2) []

theorem get?_put (table : Table κ α) (key other : κ) (value : α) :
    (table.put key value).get? other = if key = other then some value else table.get? other := by
  induction table with
  | nil => simp [put, get?]
  | cons pair rest ih =>
    by_cases same : pair.1 = key
    · subst same
      by_cases found : pair.1 = other <;> simp [put, get?, found]
    · by_cases found : pair.1 = other
      · have different : key ≠ other := fun equal => same (found.trans equal.symm)
        rw [put, if_neg same, get?, get?, if_pos found, if_pos found, if_neg different]
      · simp [put, get?, same, found, ih]

end Table

end Fieldbus
