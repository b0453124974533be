import GuardedWalk.World.Act

/-!
# The registry of parked calls

A policy that parks callers keeps one entry for each suspended thread, in the order in which they
were suspended, under the number of the thread. A wake marks entries; each thread removes its own
entry when its wait has ended, and reads there whether it was cancelled. The registry is a
dictionary that others can reach.

## Main definitions

* `GuardedWalk.Parking.park` — the entry of a thread that is about to wait.
* `GuardedWalk.Parking.unpark` — the entry of a thread is removed.
* `GuardedWalk.Parking.wake` — wakes all suspended threads or one of them.
* `GuardedWalk.Parking.isWoken`, `isCancelled` — what has become of a suspended call.

## Main results

* `GuardedWalk.Parking.isWoken_rouse` — a roused call is woken, all others are as before.
-/

set_option autoImplicit false

namespace GuardedWalk

namespace Parking

variable {ε : Type}

open Act

/-- Takes the lock of a policy. -/
def lock (p : Ref .policy) : Act ε Unit := do checkLock (← own (.policy p) Policy.lockField)

/-- The registry of a policy. -/
def registry (p : Ref .policy) : Act ε Value := own (.policy p) Policy.registryField

/-- A thread that is about to wait is entered in the registry of a policy. -/
def park (t : Thread) (p : Ref .policy) (node visitor : Value) : Act ε (Ref .parked) := do
  let wake ← make (·.newLock)
  let r ← make fun w =>
    (w.parked.next, { w with parked := w.parked.add (.new t node visitor wake) })
  lock p
  let registry ← registry p
  putItem registry t.number (.parked r)
  return r

/-- A thread is no longer inside its wait. -/
def leave (r : Ref .parked) : Act ε Unit :=
  change fun w => { w with parked := w.parked.modify r fun x => { x with asleep := false } }

/-- The entry of a thread is removed from the registry of a policy, if there is one. -/
def unpark (t : Thread) (p : Ref .policy) : Act ε Unit := do
  lock p
  match ← registry p with
  | .dictionary d => change (·.take d t.number)
  | .list _ => throw (.expectsCount "pop" "at most 1 argument" 2)
  | v => look fun w => .error (.missingAttribute (w.typeName v) "pop")

/-- The calls of a registry that a wake is meant for: all of them, or the one of the thread of a
number. -/
def meant (registry number : Value) : Act ε (List Value) := do
  match registry, number with
  | .dictionary d, .none => see fun w => (w.dictionaries.get d).values
  | .dictionary d, number =>
    let key ← look (·.asKey number)
    see fun w => (w.lookup d key).toList
  | v, .none => look fun w => .error (.missingAttribute (w.typeName v) "values")
  | .list _, number | .tuple _, number =>
    if (← see fun w => (w.elements registry).any (w.same · number)) then
      return [← look (·.item registry number)]
    else return []
  | v, _ => look fun w => .error (.notContainer (w.typeName v))

/-- A suspended call is woken. -/
def rouse (w : World ε) (r : Ref .parked) : World ε :=
  { w with parked := w.parked.modify r fun x => { x with woken := true } }

/-- Wakes one call and says whether it is cancelled. -/
def wakeCall (obstruct : Obstruction ε) (cancelled call : Value) : Act ε Unit := do
  assign obstruct call ParkedCall.cancelledField cancelled
  match call with
  | .parked r => change (rouse · r)
  | v =>
    let signal ← read v ParkedCall.wakeField
    let _ ← read signal "set"

/-- Wakes the calls of a policy that a wake is meant for; says how many there are. -/
def wake (obstruct : Obstruction ε) (p : Ref .policy) (number cancelled : Value) :
    Act ε Nat := do
  lock p
  let calls ← meant (← registry p) number
  let _ ← collect (wakeCall obstruct cancelled) calls
  return calls.length

/-- Whether a suspended call has been woken. -/
def isWoken (w : World ε) (r : Ref .parked) : Bool := (w.parked.get r).woken

/-- Whether the latest wake of a suspended call was a cancellation. -/
def isCancelled (r : Ref .parked) : Act ε Bool := do
  isTrue (← own (.parked r) ParkedCall.cancelledField)

/-- A roused call is woken, all others are as before. -/
theorem isWoken_rouse (w : World ε) (r s : Ref .parked) :
    isWoken (rouse w r) s = (s = r || isWoken w s) := by
  by_cases h : s = r <;> simp [isWoken, rouse, Store.get_modify, h]

end Parking

end GuardedWalk
