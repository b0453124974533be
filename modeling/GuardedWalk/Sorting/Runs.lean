import GuardedWalk.Sorting.Merge

/-!
# Sorting by runs

A sequence is cut into runs, each the longest beginning that ascends or descends; a run that is too
short takes in the elements that follow, each put in its place by halving. Runs that follow one
another are merged, in an order that keeps their lengths balanced. The comparison may have an
effect, and it may contradict itself; which elements are compared, and in which order, does not
depend on anything else.

## Main definitions

* `GuardedWalk.Sorting.runLength` — the length of the first run.
* `GuardedWalk.Sorting.Run` — a run that has yet to be merged.
* `GuardedWalk.Sorting.cut`, `collapse` — the runs of a sequence, and their merge.
* `GuardedWalk.Sorting.sortBy` — the elements in order.
-/

set_option autoImplicit false

namespace GuardedWalk.Sorting

variable {m : Type → Type} [Monad m] {α : Type}

/-- How many elements follow the first one in steps that all descend, or all do not. -/
def runLength (before : Before m α) (descends : Bool) : α → List α → m Nat
  | _, [] => return 0
  | a, b :: rest => do
    if (← before b a) = descends then return (← runLength before descends b rest) + 1
    else return 0

/-- Puts elements into a sorted sequence, one after the other. -/
def putAll (before : Before m α) : List α → List α → m (List α)
  | sorted, [] => return sorted
  | sorted, x :: rest => do
    let place ←
      halve (fun y => return !(← before x y)) sorted.toArray sorted.length 0 sorted.length
    putAll before (sorted.take place ++ x :: sorted.drop place) rest

/-- The length below which a run takes in the elements that follow it, for a number of elements: the
number is halved until it is small, and rounded up if anything was lost. -/
def leastRun (lost : Nat) : Nat → Nat → Nat
  | 0, n => n + lost
  | fuel + 1, n => if n < 64 then n + lost else leastRun (lost ||| n % 2) fuel (n / 2)

/-- A run that has yet to be merged. -/
structure Run (α : Type) where
  /-- The place of the first element. -/
  start : Nat
  /-- The elements in order. -/
  items : List α
  /-- How deep in a balanced tree the border to the next run lies. -/
  depth : Nat

/-- How deep in a balanced tree over `total` elements the border between two points lies, given
twice their places: the number of binary digits up to the first one in which the places, taken as
parts of the whole, differ. -/
def borderDepth (total : Nat) : Nat → Nat → Nat → Nat
  | 0, _, _ => 1
  | fuel + 1, a, b =>
    if total ≤ a then borderDepth total fuel (2 * (a - total)) (2 * (b - total)) + 1
    else if total ≤ b then 1
    else borderDepth total fuel (2 * a) (2 * b) + 1

/-- Two runs that follow one another as one. -/
def join (before : Before m α) (needed : Nat) (left right : Run α) : m (Run α × Nat) := do
  let (items, needed) ← merge before needed left.items right.items
  return (⟨left.start, items, right.depth⟩, needed)

/-- Merges the latest runs as long as the border before the latest lies deeper than the one behind
it. The latest run comes first. -/
def settle (before : Before m α) (depth : Nat) :
    Nat → List (Run α) → List (Run α) → m (List (Run α) × Nat)
  | needed, _ :: fuel, right :: left :: rest => do
    if depth < left.depth then
      let (run, needed) ← join before needed left right
      settle before depth needed fuel (run :: rest)
    else return ({ right with depth } :: left :: rest, needed)
  | needed, _, right :: rest => return ({ right with depth } :: rest, needed)
  | needed, _, [] => return ([], needed)

/-- Merges all runs: the latest two, or the two before the latest if the earlier of them is shorter
than the latest. -/
def collapse (before : Before m α) : Nat → List (Run α) → List (Run α) → m (List α)
  | needed, _ :: fuel, last :: right :: left :: rest => do
    if left.items.length < last.items.length then
      let (run, needed) ← join before needed left right
      collapse before needed fuel (last :: run :: rest)
    else
      let (run, needed) ← join before needed right last
      collapse before needed fuel (run :: left :: rest)
  | needed, _, [right, left] => return (← merge before needed left.items right.items).1
  | _, _, runs => return (runs.reverse.map (·.items)).flatten

/-- The first run of some elements in order, long enough if there are enough elements, and what
follows it. -/
def firstRun (before : Before m α) (least : Nat) : List α → m (List α × List α)
  | a :: b :: rest => do
    let descends ← before b a
    let n := (← runLength before descends b rest) + 2
    let run := (a :: b :: rest).take n
    let rest := (a :: b :: rest).drop n
    let run ← putAll before (if descends then run.reverse else run) (rest.take (least - n))
    return (run, rest.drop (least - n))
  | xs => return (xs, [])

/-- Cuts a sequence into runs and merges those that lie deep enough; the latest run comes first. -/
def cut (before : Before m α) (least total : Nat) :
    Nat → (needed : Nat) → List (Run α) → List α → m (List (Run α) × Nat)
  | 0, needed, runs, _ => return (runs, needed)
  | _, needed, runs, [] => return (runs, needed)
  | fuel + 1, needed, runs, xs => do
    let (items, rest) ← firstRun before least xs
    match runs with
    | [] => cut before least total fuel needed [⟨0, items, 0⟩] rest
    | last :: _ =>
      let n := last.items.length
      let a := 2 * last.start + n
      let depth := borderDepth total total a (a + n + items.length)
      let (runs, needed) ← settle before depth needed runs runs
      cut before least total fuel needed (⟨last.start + n, items, 0⟩ :: runs) rest

/-- The elements in order. -/
def sortBy (before : Before m α) (xs : List α) : m (List α) := do
  let n := xs.length
  let (runs, needed) ← cut before (leastRun 0 n n) n n worthwhile [] xs
  collapse before needed runs runs

end GuardedWalk.Sorting
