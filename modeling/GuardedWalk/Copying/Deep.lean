import GuardedWalk.Copying.Memo
import GuardedWalk.Copying.Shallow

/-!
# Deep copies

A deep copy duplicates everything that can be reached from a value and keeps sharing: what has been
duplicated once is remembered, and its duplicate is taken wherever it is met again. A list, a
dictionary or an object is remembered before its contents are copied, so it may lie inside itself; a
tuple, a method or an exception is remembered only when it has been made. A tuple all of whose
elements stay as they are stays as it is.

## Main definitions

* `GuardedWalk.Copying.Duplicating` — what copies something and remembers what it has duplicated.
* `GuardedWalk.Copying.deepWithin` — a deep copy of a value.
* `GuardedWalk.Copying.deep` — the same, starting from nothing.

## Main results

* `GuardedWalk.Copying.deepWithin_shared` — plain data are kept as they are.
-/

set_option autoImplicit false

namespace GuardedWalk

namespace Copying

variable {ε : Type}

open Act

/-- What copies something and remembers which object stands for which. -/
abbrev Duplicating (ε α : Type) : Type := StateT (Memo Value) (Act ε) α

/-- Remembers what stands for an object. -/
def remember (v copy : Value) : Duplicating ε Unit := modify fun m => m.insert v copy

/-- What stands for a value, if it has been duplicated. -/
def recalled? (v : Value) : Duplicating ε (Option Value) := return (← get).find? v

/-- Copies the pairs of a dictionary into another one; a value is copied before its key. -/
def copyPairs (copy : Value → Duplicating ε Value) (r : Ref .dictionary) :
    List (Value × Value) → Duplicating ε Unit
  | [] => return
  | (key, v) :: rest => do
    let v ← copy v
    let key ← copy key
    (change (·.put r key v) : Act ε Unit)
    copyPairs copy r rest

/-- Copies elements to the end of a list. -/
def copyItems (copy : Value → Duplicating ε Value) (r : Ref .list) :
    List Value → Duplicating ε Unit
  | [] => return
  | v :: rest => do
    let v ← copy v
    (change (·.push r v) : Act ε Unit)
    copyItems copy r rest

/-- Copies values. -/
def copyAll (copy : Value → Duplicating ε Value) : List Value → Duplicating ε (List Value)
  | [] => return []
  | v :: rest => do
    let x ← copy v
    return x :: (← copyAll copy rest)

/-- Copies the values of attributes. -/
def copyAttributes (copy : Value → Duplicating ε Value) (a : Attributes) :
    Duplicating ε Attributes := do
  return (a.map (·.1)).zip (← copyAll copy (a.map (·.2)))

/-- Copies an object; `copy` copies what it holds. -/
def copyObject (copy : Value → Duplicating ε Value) (v : Value) : Duplicating ε Value := do
  match v with
  | .list r =>
    let items ← (see (·.items r) : Act ε _)
    let s ← (make (·.storeList []) : Act ε _)
    let list := Value.list s
    remember v list
    copyItems copy s items
    return list
  | .tuple r =>
    let items ← (see (·.row r) : Act ε _)
    let copies ← copyAll copy items
    match ← recalled? v with
    | some found => return found
    | none =>
      if copies = items then return v
      let row ← (addTuple copies : Act ε _)
      remember v row
      return row
  | .dictionary r =>
    let pairs ← (see fun w => (w.dictionaries.get r).pairs : Act ε _)
    let d ← (make fun w =>
      (w.dictionaries.next, { w with dictionaries := w.dictionaries.add .empty }) : Act ε _)
    let dictionary := Value.dictionary d
    remember v dictionary
    copyPairs copy d pairs
    return dictionary
  | .exception r =>
    let e ← (see (·.exceptions.get r) : Act ε _)
    let args ← copyAll copy (← (see (·.argsOf r) : Act ε _))
    let made := Value.exception (← (makeException e.cls args : Act ε _))
    remember v made
    let attributes ← copyAttributes copy e.attributes
    (restore made attributes : Act ε _)
    return made
  | .method r =>
    let x ← (see (·.methods.get r) : Act ε _)
    if x.typeName ≠ "method" then return v
    let self ← copy x.self
    let method ← (make (·.newMethod self x.message) : Act ε _)
    remember v method
    return method
  | v =>
    match uncopyable? v with
    | some typeName => throw (.uncopyable typeName)
    | none =>
      let attributes ← (see (handedOn · v) : Act ε _)
      let object ← (blank v : Act ε _)
      remember v object
      let attributes ← copyAttributes copy attributes
      (restore object attributes : Act ε _)
      return object

/-- A deep copy of a value, at most `fuel` objects deep; `begun` are the objects being copied, each
with how much was remembered when it was begun. One that is met again before anything else is
remembered would never be done. -/
def deepWithin : Nat → List (Value × Nat) → Value → Duplicating ε Value
  | fuel, begun, v => do
    if isShared v then return v
    match ← recalled? v with
    | some found => return found
    | none =>
      let known := (← get).size
      if begun.lookup v = some known then throw .tooDeep
      match fuel with
      | 0 => throw .tooDeep
      | fuel + 1 => copyObject (deepWithin fuel ((v, known) :: begun)) v

/-- A copy of a value and of everything that can be reached from it. Between two objects that are
remembered, those being copied differ, so there are fewer than the square of the extent. -/
def deep (v : Value) : Act ε Value := do
  let fuel ← see fun w => w.extent * w.extent
  return (← (deepWithin fuel [] v).run .empty).1

/-- Plain data are kept as they are. -/
theorem deepWithin_shared {v : Value} (h : isShared v = true) (fuel : Nat)
    (begun : List (Value × Nat)) :
    (deepWithin fuel begun v : Duplicating ε Value) = pure v := by
  unfold deepWithin
  simp [h]

end Copying

end GuardedWalk
