/-!
# Sorting by runs

A stable sort for items of which some may be comparable to nothing, as NaN is among
numbers.  The order of such items depends on which comparisons are made, so those are
fixed here.  The items are cut into runs, a short run is filled up by binary
insertion, and neighbouring runs are merged by their power: how deep the boundary
between them lies in a balanced tree over all items.
-/

namespace Fieldbus

namespace RunSort

variable {α : Type}

/-! ## Searching -/

/-- Find the first item that does not win between two places.  `late` says which of
two middle places is tried. -/
def narrow (wins : Nat → Bool) (late : Bool) : (fuel low high : Nat) → Nat
  | 0, low, _ => low
  | fuel + 1, low, high =>
      if low < high then
        let middle := low + (high - low - (if late then 1 else 0)) / 2
        if wins middle then narrow wins late fuel (middle + 1) high
        else narrow wins late fuel low middle
      else low

/-- Step over winners with strides that double: the last winner seen, and a place that
ends the search. -/
def stride (wins : Nat → Bool) (count : Nat) : (fuel last next : Nat) → Nat × Nat
  | 0, last, next => (last, min next count)
  | fuel + 1, last, next =>
      if next < count && wins next then stride wins count fuel next (2 * next + 1)
      else (last, min next count)

/-- How many of the leading items win. -/
def leading (wins : α → Bool) (late : Bool) (items : List α) : Nat :=
  let winsAt (place : Nat) : Bool := items[place]?.any wins
  if winsAt 0 then
    let (last, stop) := stride winsAt items.length items.length 0 1
    narrow winsAt late items.length (last + 1) stop
  else 0

/-! ## Merging -/

/-- How often in a row one side of a merge has to win before the merge gallops; a
merge adapts it for later ones. -/
abbrev Patience := Nat

/-- A win of so many items keeps a merge galloping. -/
def gallopLength : Nat := 7

/-- From which end two runs are merged.  Their items are listed from that end on. -/
inductive End where
  | front | back
  deriving DecidableEq, Repr

namespace End

/-- Whether the item of the right run is next. -/
def takesRight (side : End) (less : α → α → Bool) (left right : α) : Bool :=
  match side with
  | front => less right left
  | back => !less right left

/-- What remains of a merge that needs no more comparisons: the shorter run has one
item left, or one of the runs is used up. -/
def remainder? (side : End) (left right : List α) : Option (List α) :=
  match side, left, right with
  | _, [], right => some right
  | _, left, [] => some left
  | front, [last], right => some (right ++ [last])
  | back, left, [last] => some (left ++ [last])
  | _, _, _ => none

end End

/-- Put items before what a merge returns. -/
def prepend (items : List α) (merged : List α × Patience) : List α × Patience :=
  (items ++ merged.1, merged.2)

mutual

/-- Merge item by item, until one side wins too often in a row. -/
def mergeItems (less : α → α → Bool) (side : End) :
    (fuel : Nat) → Patience → (leftWins rightWins : Nat) → (left right : List α) →
      List α × Patience
  | 0, patience, _, _, left, right => (left ++ right, patience)
  | fuel + 1, patience, leftWins, rightWins, left, right =>
      match side.remainder? left right with
      | some rest => (rest, patience)
      | none =>
          if patience ≤ max leftWins rightWins then
            mergeStretches less side fuel patience left right
          else
            match left, right with
            | first :: left, second :: right =>
                if side.takesRight less first second then
                  prepend [second]
                    (mergeItems less side fuel patience 0 (rightWins + 1) (first :: left) right)
                else
                  prepend [first]
                    (mergeItems less side fuel patience (leftWins + 1) 0 left (second :: right))
            | left, right => (left ++ right, patience)

/-- Merge whole stretches of winners, as long as they are long. -/
def mergeStretches (less : α → α → Bool) (side : End) :
    (fuel : Nat) → Patience → (left right : List α) → List α × Patience
  | 0, patience, left, right => (left ++ right, patience)
  | _, patience, left, [] => (left, patience)
  | fuel + 1, patience, left, second :: right =>
      let late := side = .back
      let leftCount := leading (fun item => !side.takesRight less item second) late left
      let taken := left.take leftCount
      match side.remainder? (left.drop leftCount) (second :: right) with
      | some rest => (taken ++ rest, patience)
      | none =>
          match left.drop leftCount with
          | [] => (taken ++ second :: right, patience)
          | first :: left =>
              match side.remainder? (first :: left) right with
              | some rest => (taken ++ second :: rest, patience)
              | none =>
                  let rightCount := leading (side.takesRight less first) late right
                  let won := taken ++ second :: right.take rightCount
                  match side.remainder? (first :: left) (right.drop rightCount) with
                  | some rest => (won ++ rest, patience)
                  | none =>
                      let right := right.drop rightCount
                      match side.remainder? left right with
                      | some rest => (won ++ first :: rest, patience)
                      | none =>
                          if gallopLength ≤ max leftCount rightCount then
                            prepend (won ++ [first])
                              (mergeStretches less side fuel (max 1 (patience - 1)) left right)
                          else
                            prepend (won ++ [first])
                              (mergeItems less side fuel (patience + 1) 0 0 left right)

end

/-- Merge two neighbouring runs.  What is in place already at both ends stays; the
shorter remaining run says from which end the rest is merged. -/
def merge (less : α → α → Bool) (patience : Patience) (left right : List α) :
    List α × Patience :=
  match right, left.reverse with
  | first :: _, last :: _ =>
      let settled := leading (fun item => !less first item) false left
      let rest := left.drop settled
      if rest.isEmpty then (left ++ right, patience)
      else
        let settledEnd := leading (fun item => !less item last) true right.reverse
        let mixed := right.take (right.length - settledEnd)
        let tail := right.drop (right.length - settledEnd)
        let fuel := rest.length + mixed.length + 1
        let (merged, patience) := match mixed with
          | [] => (rest, patience)
          | next :: others =>
              if rest.length ≤ mixed.length then
                prepend [next] (mergeItems less .front (2 * fuel) patience 0 0 rest others)
              else
                let backward := mergeItems less .back (2 * fuel) patience 0 0
                  (rest.reverse.drop 1) mixed.reverse
                (backward.1.reverse ++ rest.reverse.take 1, backward.2)
        (left.take settled ++ merged ++ tail, patience)
  | _, _ => (left ++ right, patience)

/-! ## Runs -/

/-- How many items go on ascending, or descending strictly, after a first one. -/
def goOn (less : α → α → Bool) (descends : Bool) : (last : α) → List α → Nat
  | _, [] => 0
  | last, item :: rest =>
      if less item last = descends then goOn less descends item rest + 1 else 0

/-- The first run of some items, in ascending order, and the other items. -/
def firstRun (less : α → α → Bool) : List α → List α × List α
  | [] => ([], [])
  | [item] => ([item], [])
  | first :: second :: rest =>
      let descends := less second first
      let count := goOn less descends second rest + 2
      let run := (first :: second :: rest).take count
      (if descends then run.reverse else run, (first :: second :: rest).drop count)

/-- Insert an item after those of a run that it is not less than. -/
def insert (less : α → α → Bool) (run : List α) (item : α) : List α :=
  let place := narrow (fun place => run[place]?.any (!less item ·)) false run.length 0 run.length
  run.take place ++ item :: run.drop place

/-- The least length of a run among `count` items. -/
def leastRun : (fuel count odd : Nat) → Nat
  | 0, count, odd => count + odd
  | fuel + 1, count, odd =>
      if 64 ≤ count then leastRun fuel (count / 2) (max odd (count % 2)) else count + odd

/-- The power of the boundary between two runs, given twice the middles of both and
the number of all items. -/
def power : (fuel left right count : Nat) → Nat
  | 0, _, _, _ => 0
  | fuel + 1, left, right, count =>
      if count ≤ left then power fuel (2 * (left - count)) (2 * (right - count)) count + 1
      else if count ≤ right then 1
      else power fuel (2 * left) (2 * right) count + 1

/-- A run, where it starts, and the power of its boundary to the next one. -/
structure Run (α : Type) where
  start : Nat
  items : List α
  power : Nat

namespace Run

/-- Merge a run with the next one. -/
def join (less : α → α → Bool) (patience : Patience) (run next : Run α) : Run α × Patience :=
  let (items, patience) := merge less patience run.items next.items
  ({ run with items }, patience)

end Run

/-- Merge the last run with those before it whose power exceeds that of a boundary. -/
def collapse (less : α → α → Bool) (power : Nat) :
    (last : Run α) → (before : List (Run α)) → Patience → List (Run α) × Patience
  | last, [], patience => ([{ last with power }], patience)
  | last, previous :: before, patience =>
      if power < previous.power then
        let (joined, patience) := previous.join less patience last
        collapse less power joined before patience
      else ({ last with power } :: previous :: before, patience)

/-- Merge all runs, the last one first. -/
def collapseAll (less : α → α → Bool) :
    (fuel : Nat) → (last : Run α) → (before : List (Run α)) → Patience → List α
  | 0, last, _, _ => last.items
  | _, last, [], _ => last.items
  | fuel + 1, last, previous :: before, patience =>
      match before with
      | earlier :: others =>
          if earlier.items.length < last.items.length then
            let (joined, patience) := earlier.join less patience previous
            collapseAll less fuel last (joined :: others) patience
          else
            let (joined, patience) := previous.join less patience last
            collapseAll less fuel joined (earlier :: others) patience
      | [] =>
          let (joined, patience) := previous.join less patience last
          collapseAll less fuel joined [] patience

/-- Cut the remaining items into runs of some least length and merge them; `runs` are
those before, the last one first. -/
def sortFrom (less : α → α → Bool) (count least : Nat) :
    (fuel start : Nat) → List (Run α) → Patience → List α → List α
  | fuel + 1, start, runs, patience, item :: rest =>
      let (run, others) := firstRun less (item :: rest)
      let missing := least - run.length
      let items := (others.take missing).foldl (insert less) run
      let (runs, patience) := match runs with
        | last :: before =>
            let left := 2 * last.start + last.items.length
            let boundary :=
              power (2 * count) left (left + last.items.length + items.length) count
            collapse less boundary last before patience
        | [] => ([], patience)
      sortFrom less count least fuel (start + items.length) (⟨start, items, 0⟩ :: runs) patience
        (others.drop missing)
  | _, _, last :: before, patience, _ => collapseAll less (before.length + 1) last before patience
  | _, _, [], _, items => items

/-- The items in ascending order; items of which none is less keep their order. -/
def sort (less : α → α → Bool) (items : List α) : List α :=
  let count := items.length
  sortFrom less count (leastRun count count 0) count 0 [] gallopLength items

end RunSort

end Fieldbus
