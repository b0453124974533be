import GuardedWalk.Call
import GuardedWalk.Reply

/-!
# Answers to foreign traversal

The wrapper of a guarded node asks the guard that has tagged the node. A visitor that may traverse
the node is handed to the traversal that the wrapper hides; for any other the policy of the guard
answers: it refuses, suspends the calling thread, writes a report or runs foreign code.

## Main definitions

* `GuardedWalk.Walk.canonical` — whether a visitor may traverse guarded nodes.
* `GuardedWalk.Walk.dispatch` — the answer of a guard to a call of a wrapper.
* `GuardedWalk.Walk.handle` — the answer of a policy to an attempt at foreign traversal.
-/

set_option autoImplicit false

namespace GuardedWalk

/-- The log record about an attempt at foreign traversal. -/
def Attempt.warning (a : Attempt) : String :=
  "Deprecated: stop visiting things like " ++ a.nodeType ++ " from " ++ a.visitorType ++
    " (thread " ++ a.thread ++ ")"

/-- The log record about an attempt that was skipped. -/
def Attempt.skipped (a : Attempt) : String :=
  "Skipped foreign traversal of " ++ a.nodeType ++ " by " ++ a.visitorType ++ " on thread " ++
    a.thread

namespace Walk

open Routine

variable {ε κ : Type}

/-- Whether a visitor may traverse guarded nodes: it must show a guard of its own, whose token is
idle or held by the calling thread. -/
def canonical (visitor : Value) : Steps ε κ Value := do
  match ← read (·.shownGuard? visitor) with
  | none => return .bool false
  | some g =>
    let ownership ← own (.guard g) Guard.ownershipField
    if (← readAttr ownership "session") = .none then return .bool true
    else send (← own (.guard g) Guard.ownershipField) .isOwned []

/-- The answer of a guard to the call of a wrapper around `inner`. -/
def dispatch (t : Thread) (g : Ref .guard) (node inner visitor : Value) : Steps ε κ Value := do
  let may ← send (.guard g) .isCanonical [visitor]
  if ← examine (·.isTrue may) then apply inner [visitor]
  else
    let quiet ← own (.guard g) Guard.quietField
    if !(← examine (·.isTrue quiet)) then
      change fun w => w.say .warning .guard (w.attempt t node visitor).warning
    send (← own (.guard g) Guard.policyField) .handle [node, visitor]

/-- Waits until a parked call is woken or its time is over; says which. -/
def awaitWake (p : Ref .policy) (r : Ref .parked) : Steps ε κ Bool := do
  let timeout ← own (.policy p) Policy.timeoutField
  let limit ← examine fun w => Limit.ofParking w.clock (w.typeName timeout) timeout
  await (Parking.isWoken · r) limit.time?

/-- The calling thread is suspended until it is woken or its time is over. -/
def suspend (t : Thread) (p : Ref .policy) (node visitor : Value) : Steps ε κ Value := do
  let r ← act (Parking.park t p node visitor)
  change fun w =>
    w.say .debug .guard ("Parking thread " ++ t.name ++ " on " ++ w.className node)
  let woken ← (awaitWake p r).outcome
  act (Parking.leave r)
  act (Parking.unpark t p)
  match woken with
  | .error f => throw f
  | .ok woken =>
    let attempt ← read (·.attempt t node visitor)
    if ← act (Parking.isCancelled r) then throw (.foreignTraversal attempt .cancelled)
    else if !woken then throw (.foreignTraversal attempt .timeout)
    else return .none

/-- An attempt is reported. -/
def record (t : Thread) (p : Ref .policy) (node visitor : Value) : Steps ε κ Value := do
  let attempt ← read (·.attempt t node visitor)
  let report ← act (Act.addDictionary (Reports.report attempt))
  act (Act.checkLock (← own (.policy p) Policy.lockField))
  appendTo (.policy p) Policy.reportsField report
  let verbose ← own (.policy p) Policy.verboseField
  if ← examine (·.isTrue verbose) then
    change (·.say .warning .guard attempt.skipped)
  return .none

/-- A policy of the user notes the attempt and runs foreign code. -/
def consult (F : Foreign ε κ) (t : Thread) (p : Ref .policy) (node visitor : Value) :
    Steps ε κ Value := do
  appendTo (.policy p) Observer.callsField (← act (Act.addList [node, visitor]))
  F.handle t p node visitor

/-- The answer of a policy to an attempt at foreign traversal. -/
def handle (F : Foreign ε κ) (t : Thread) (p : Ref .policy) (node visitor : Value) :
    Steps ε κ Value := do
  match (← read (·.policies.get p)).body with
  | .reject => throw (.foreignTraversal (← read (·.attempt t node visitor)) .rejected)
  | .park => suspend t p node visitor
  | .record => record t p node visitor
  | .custom _ => consult F t p node visitor

end Walk

end GuardedWalk
