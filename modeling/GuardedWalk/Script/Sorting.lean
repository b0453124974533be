import GuardedWalk.Sorting.Runs
import GuardedWalk.World.Elements

/-!
# The order of keys

The keys of a dictionary are answered in order. Keys of different kinds have no order among them,
so sorting may fail; which two keys the failure names is decided by which keys are compared first.

## Main definitions

* `GuardedWalk.Script.keyBefore` — whether a key stands before another one.
* `GuardedWalk.Script.sortedPairs` — the pairs of a dictionary in the order of their keys.

## Main results

* `GuardedWalk.Script.keyBefore_text` — texts stand in the order of their characters.
-/

set_option autoImplicit false

namespace GuardedWalk.Script

variable {ε : Type}

/-- Two keys have no order. -/
def unorderedKeys (w : World ε) (a b : Value) : Failure :=
  .unordered "<" (w.typeName a) (w.typeName b)

/-- Whether a row stands before another one: the first elements that differ decide, or else the
lengths. -/
def rowBefore (same : Value → Value → Bool) (before : Value → Value → Except Failure Bool) :
    List Value → List Value → Except Failure Bool
  | a :: as, b :: bs => if same a b then rowBefore same before as bs else before a b
  | [], _ :: _ => .ok true
  | _, [] => .ok false

/-- Whether a key stands before another one, at most `fuel` tuples deep. -/
def keyBeforeWithin (w : World ε) : Nat → Value → Value → Except Failure Bool
  | fuel, a, b =>
    match a, b, fuel with
    | .text s, .text t, _ => .ok (decide (s < t))
    | .tuple r, .tuple r', fuel + 1 =>
      rowBefore w.same (keyBeforeWithin w fuel) (w.row r) (w.row r')
    | a, b, _ =>
      match a.number?, b.number? with
      | some m, some n => .ok (m.compare n = some .lt)
      | _, _ => .error (unorderedKeys w a b)

/-- Whether a key stands before another one. -/
def keyBefore (w : World ε) (a b : Value) : Except Failure Bool :=
  keyBeforeWithin w w.extent a b

/-- The pairs of a dictionary in the order of their keys. -/
def sortedPairs (w : World ε) (r : Ref .dictionary) : Except Failure (List (Value × Value)) :=
  Sorting.sortBy (fun p q => keyBefore w p.1 q.1) (w.dictionaries.get r).pairs

/-- Texts stand in the order of their characters. -/
theorem keyBefore_text (w : World ε) (s t : String) :
    keyBefore w (.text s) (.text t) = .ok (decide (s < t)) := by
  simp [keyBefore, keyBeforeWithin]

end GuardedWalk.Script
