import GuardedWalk.World.Display

/-!
# What lists and dictionaries contain

Lists and dictionaries are shared: whoever holds one sees what others put into it or take out of it.
An index counts from the end if it is negative, and must be one that a sequence could have.

## Main definitions

* `GuardedWalk.World.item` — the element of a value at an index or under a key.
* `GuardedWalk.World.put`, `take`, `lookup` — a dictionary of the world.
* `GuardedWalk.World.withInserted`, `without`, `withReplaced` — a list of the world.
* `GuardedWalk.World.emptied` — takes everything out.

## Main results

* `GuardedWalk.World.elements_push` — a pushed element is the last one.
-/

set_option autoImplicit false

namespace GuardedWalk

namespace World

variable {ε : Type}

/-- The number of a value as an index, if it can be one. -/
def indexOf? : Value → Option Int
  | .int i => some i
  | .bool b => some (if b then 1 else 0)
  | _ => none

/-- Whether a sequence could have an index. -/
def isSmall (index : Int) : Bool := -(Nat.pow 2 63 : Int) ≤ index && index < (Nat.pow 2 63 : Int)

/-- The place that an index counts from the front, if it is one of a list of a length. -/
def placeOf (index : Int) (length : Nat) : Option Nat :=
  let i := if index < 0 then index + length else index
  if 0 ≤ i ∧ i < length then some i.toNat else none

/-- The place that a value counts in a sequence of some kind and length; `shown` tells the type of a
value that is no index. -/
def placeIn (key : Value) (what outside shown : String) (length : Nat) : Except Failure Nat :=
  match indexOf? key with
  | none => .error (.strangeIndex what shown)
  | some index =>
    if !isSmall index then .error .hugeIndex
    else
      match placeOf index length with
      | some place => .ok place
      | none => .error (.badIndex outside)

/-- The value under a key of a dictionary. -/
def lookup (w : World ε) (r : Ref .dictionary) (key : Value) : Option Value :=
  (w.dictionaries.get r).find? w.same key

/-- Puts a value under a key of a dictionary. -/
def put (w : World ε) (r : Ref .dictionary) (key x : Value) : World ε :=
  let d := (w.dictionaries.get r).put w.same key x
  { w with dictionaries := w.dictionaries.set r d }

/-- Takes a key out of a dictionary. -/
def take (w : World ε) (r : Ref .dictionary) (key : Value) : World ε :=
  let d := (w.dictionaries.get r).erase w.same key
  { w with dictionaries := w.dictionaries.set r d }

/-- The element of a value at an index or under a key. -/
def item (w : World ε) (v key : Value) : Except Failure Value :=
  let found (items : Array Value) (what shown : String) : Except Failure Value := do
    return items.getD (← placeIn key what what shown items.size) .none
  match v with
  | .list r => found (w.lists.get r) "list" (" or slices, not " ++ w.typeName key)
  | .tuple r => found (w.tuples.get r) "tuple" (" or slices, not " ++ w.typeName key)
  | .text _ => found (w.elements v).toArray "string" (", not '" ++ w.typeName key ++ "'")
  | .dictionary r => do
    match w.lookup r (← w.asKey key) with
    | some x => return x
    | none => throw (.missingKey (← w.literal key))
  | other => .error (.notIndexable (w.typeName other))

/-- Adds an element to the end of a list. -/
def push (w : World ε) (r : Ref .list) (x : Value) : World ε :=
  { w with lists := w.lists.modify r (·.push x) }

/-- Takes all elements out of a list or a dictionary. -/
def emptied (w : World ε) : Value → World ε
  | .list r => { w with lists := w.lists.set r #[] }
  | .dictionary r => { w with dictionaries := w.dictionaries.set r .empty }
  | _ => w

/-- The place before which something is inserted into a list of a length. -/
def insertionPlace (index : Int) (length : Nat) : Nat :=
  let i := if index < 0 then index + length else index
  min i.toNat length

/-- The number that a value counts as a place in a list. -/
def asPlace (w : World ε) (index : Value) : Except Failure Int :=
  match indexOf? index with
  | none => .error (.notIndex (w.typeName index))
  | some i => if isSmall i then .ok i else .error .hugePlace

/-- The place at which an element is inserted into a list. -/
def placeToInsert (w : World ε) (r : Ref .list) (index : Value) : Except Failure Nat := do
  return insertionPlace (← w.asPlace index) (w.lists.get r).size

/-- Puts an element into a list before a place. -/
def withInserted (w : World ε) (r : Ref .list) (place : Nat) (x : Value) : World ε :=
  { w with lists := w.lists.modify r (·.insertIdxIfInBounds place x) }

/-- The place of an element that is taken out of a list. -/
def placeToPop (w : World ε) (r : Ref .list) (index : Value) : Except Failure Nat := do
  let size := (w.lists.get r).size
  match placeOf (← w.asPlace index) size with
  | some place => return place
  | none => throw (if size = 0 then .emptyList else .outsideList)

/-- The element in a place of a list. -/
def elementAt (w : World ε) (r : Ref .list) (place : Nat) : Value :=
  (w.lists.get r).getD place .none

/-- Takes the element in a place out of a list. -/
def without (w : World ε) (r : Ref .list) (place : Nat) : World ε :=
  { w with lists := w.lists.modify r (·.eraseIdxIfInBounds place) }

/-- The place of an element of a list that is replaced. -/
def placeToReplace (w : World ε) (r : Ref .list) (key : Value) : Except Failure Nat :=
  placeIn key "list" "list assignment" (" or slices, not " ++ w.typeName key)
    (w.lists.get r).size

/-- Replaces the element in a place of a list. -/
def withReplaced (w : World ε) (r : Ref .list) (place : Nat) (x : Value) : World ε :=
  { w with lists := w.lists.modify r (·.setIfInBounds place x) }

/-- The value that is taken out of a dictionary under a key; any value can be missing in an empty
one. -/
def valueToPop (w : World ε) (r : Ref .dictionary) (key : Value) : Except Failure Value := do
  if (w.dictionaries.get r).pairs.isEmpty then throw (.missingKey (← w.literal key))
  match w.lookup r (← w.asKey key) with
  | some x => return x
  | none => throw (.missingKey (← w.literal key))

/-- A pushed element is the last one of the list, and no other list changes. -/
theorem elements_push (w : World ε) (r s : Ref .list) (x : Value) :
    (w.push r x).elements (.list s) =
      if s = r then w.elements (.list r) ++ [x] else w.elements (.list s) := by
  by_cases h : s = r <;> simp [push, elements, items, Store.get_modify, h]

end World

end GuardedWalk
