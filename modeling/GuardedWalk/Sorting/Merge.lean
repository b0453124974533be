import GuardedWalk.Sorting.Gallop

/-!
# Merging two runs

Two sorted sequences that follow one another are merged into one. Elements are compared in turns
until one side has won several times in a row; then whole stretches are searched for, as long as
that pays. How many wins it takes changes with how well that works. The merge goes forwards if the
left side is the shorter one, and backwards if it is not.

## Main definitions

* `GuardedWalk.Sorting.Before` — a comparison.
* `GuardedWalk.Sorting.forwards`, `backwards` — the merge in either direction.
* `GuardedWalk.Sorting.merge` — the merge of two runs.
-/

set_option autoImplicit false

namespace GuardedWalk.Sorting

variable {m : Type → Type} [Monad m] {α : Type}

/-- A comparison: whether one element stands before another one. -/
abbrev Before (m : Type → Type) (α : Type) : Type := α → α → m Bool

/-- How long a stretch must be for searching to have paid. -/
def worthwhile : Nat := 7

/-- Merges forwards. The elements of `as` come before those of `bs` unless they stand behind them,
`out` has what has been put in order, the latest first, and `wins` says how often either side has
won in a row, or that stretches are being searched for. The result comes with the number of wins
that the next search takes. -/
def forwards (before : Before m α) :
    Nat → (needed : Nat) → (wins : Option (Nat × Nat)) → (as bs out : List α) →
      m (List α × Nat)
  | fuel + 1, needed, some (won, lost), a :: as, b :: bs, out => do
    if ← before b a then
      if bs.isEmpty then return (out.reverse ++ b :: a :: as, needed)
      else if needed ≤ lost + 1 then forwards before fuel needed none (a :: as) bs (b :: out)
      else forwards before fuel needed (some (0, lost + 1)) (a :: as) bs (b :: out)
    else
      match as with
      | [last] => return (out.reverse ++ a :: b :: bs ++ [last], needed)
      | as =>
        if needed ≤ won + 1 then forwards before fuel needed none as (b :: bs) (a :: out)
        else forwards before fuel needed (some (won + 1, 0)) as (b :: bs) (a :: out)
  | fuel + 1, needed, none, as, b :: bs, out => do
    let k ← gallop (fun x => return !(← before b x)) as.toArray 0
    let out := (as.take k).reverse ++ out
    match as.drop k with
    | [] => return (out.reverse ++ b :: bs, needed)
    | a :: as =>
      if as.isEmpty && 0 < k then return (out.reverse ++ b :: bs ++ [a], needed)
      else if bs.isEmpty then return (out.reverse ++ b :: a :: as, needed)
      else
        let l ← gallop (before · a) bs.toArray 0
        let out := (bs.take l).reverse ++ b :: out
        let bs := bs.drop l
        if bs.isEmpty then return (out.reverse ++ a :: as, needed)
        else
          match as with
          | [last] => return (out.reverse ++ a :: bs ++ [last], needed)
          | as =>
            if worthwhile ≤ k || worthwhile ≤ l then
              forwards before fuel (if 1 < needed then needed - 1 else needed) none as bs (a :: out)
            else forwards before fuel (needed + 1) (some (0, 0)) as bs (a :: out)
  | _, needed, _, as, bs, out => return (out.reverse ++ as ++ bs, needed)

/-- Merges backwards: `as` and `bs` have their last elements first, and `out` has what has been put
in order, the least first. -/
def backwards (before : Before m α) :
    Nat → (needed : Nat) → (wins : Option (Nat × Nat)) → (as bs out : List α) →
      m (List α × Nat)
  | fuel + 1, needed, some (won, lost), a :: as, b :: bs, out => do
    if ← before b a then
      if as.isEmpty then return ((b :: bs).reverse ++ a :: out, needed)
      else if needed ≤ won + 1 then backwards before fuel needed none as (b :: bs) (a :: out)
      else backwards before fuel needed (some (won + 1, 0)) as (b :: bs) (a :: out)
    else
      match bs with
      | [first] => return (first :: (a :: as).reverse ++ b :: out, needed)
      | bs =>
        if needed ≤ lost + 1 then backwards before fuel needed none (a :: as) bs (b :: out)
        else backwards before fuel needed (some (0, lost + 1)) (a :: as) bs (b :: out)
  | fuel + 1, needed, none, as, b :: bs, out => do
    let kept ← gallop (fun x => return !(← before b x)) as.reverse.toArray (as.length - 1)
    let k := as.length - kept
    let out := (as.take k).reverse ++ out
    match as.drop k with
    | [] => return ((b :: bs).reverse ++ out, needed)
    | a :: as =>
      match bs with
      | [first] => return (first :: (a :: as).reverse ++ b :: out, needed)
      | bs => do
        let kept ← gallop (before · a) bs.reverse.toArray (bs.length - 1)
        let l := bs.length - kept
        let out := (bs.take l).reverse ++ b :: out
        match bs.drop l with
        | [] => return ((a :: as).reverse ++ out, needed)
        | bs =>
          if bs.length = 1 && 0 < l then return (bs ++ (a :: as).reverse ++ out, needed)
          else if as.isEmpty then return (bs.reverse ++ a :: out, needed)
          else if worthwhile ≤ k || worthwhile ≤ l then
            backwards before fuel (if 1 < needed then needed - 1 else needed) none as bs (a :: out)
          else backwards before fuel (needed + 1) (some (0, 0)) as bs (a :: out)
  | _, needed, _, as, bs, out => return (as.reverse ++ bs.reverse ++ out, needed)

/-- Begins a merge forwards: the first element of the right side is known to come first. -/
def beginForwards (before : Before m α) (needed : Nat) (as bs : List α) : m (List α × Nat) :=
  match as, bs with
  | [a], bs => return (bs ++ [a], needed)
  | as, [b] => return (b :: as, needed)
  | as, b :: bs => forwards before (as.length + bs.length) needed (some (0, 0)) as bs [b]
  | as, [] => return (as, needed)

/-- Begins a merge backwards: the last element of the left side is known to come last. -/
def beginBackwards (before : Before m α) (needed : Nat) (as bs : List α) : m (List α × Nat) :=
  match as.reverse, bs.reverse with
  | [a], bs => return (bs.reverse ++ [a], needed)
  | as, [b] => return (b :: as.reverse, needed)
  | a :: as, bs => backwards before (as.length + bs.length) needed (some (0, 0)) as bs [a]
  | [], bs => return (bs.reverse, needed)

/-- Merges two runs. What stands at the beginning of the left one or at the end of the right one
already is left where it is. -/
def merge (before : Before m α) (needed : Nat) (as bs : List α) : m (List α × Nat) := do
  match bs with
  | [] => return (as, needed)
  | b :: _ =>
    let k ← gallop (fun x => return !(← before b x)) as.toArray 0
    match (as.drop k).getLast? with
    | none => return (as ++ bs, needed)
    | some a =>
      let l ← gallop (before · a) bs.toArray (bs.length - 1)
      let left := as.drop k
      let right := bs.take l
      if l = 0 then return (as ++ bs, needed)
      else
        let (merged, needed) ←
          if left.length ≤ right.length then beginForwards before needed left right
          else beginBackwards before needed left right
        return (as.take k ++ merged ++ bs.drop l, needed)

end GuardedWalk.Sorting
