import GuardedWalk.Call
import GuardedWalk.Guard

/-!
# Holding a token

A block that holds a token begins when its thread has got the token and ends by giving it back,
however the block ends. What a thread does between two looks at the token is one step; between them
it waits. If giving the token back fails, that failure takes the place of the block's own, unless
they are the same.

## Main definitions

* `GuardedWalk.Walk.acquire`, `awaitToken` — a thread gets a token.
* `GuardedWalk.Walk.release` — a block ends, and with the outermost one the session.
* `GuardedWalk.Walk.conclude` — how a block ends that holds something.
* `GuardedWalk.Walk.hold` — runs a block while holding a token.
-/

set_option autoImplicit false

namespace GuardedWalk

/-- What stands for the duration of a walk in log records; a duration has to be a number. -/
def World.durationText {ε : Type} (w : World ε) (elapsed : Value) : Except Failure String :=
  match elapsed.number? with
  | none => .error (.notReal (w.typeName elapsed))
  | some (.whole i) =>
    match Binary64.ofInt i with
    | .infinite _ => .error .numberTooLarge
    | _ => .ok "<t>"
  | some (.float _) => .ok "<t>"

namespace Walk

open Routine

variable {ε κ : Type}

/-- The session in flight of a token. -/
def sessionOf (k : Ref .token) : Steps ε κ Value := own (.token k) Token.sessionField

/-- Goes on after an attempt to get a token; the session is the result. -/
def settle (t : Thread) (k : Ref .token) : Entry → Steps ε κ Value
  | .nested => sessionOf k
  | .opened => do
    change (·.say .debug .session ("Walk started on thread " ++ t.name))
    sessionOf k
  | .waits ticket => invoke (.await k ticket)

/-- Gets a token for a thread. -/
def acquire (t : Thread) (k : Ref .token) : Steps ε κ Value := do
  settle t k (← act (Ownership.enter t k))

/-- Waits for a token until woken or out of time, then looks again. -/
def awaitToken (t : Thread) (k : Ref .token) (ticket : Ticket) : Steps ε κ Value := do
  let _ ← await (fun w => !(w.conditions.get ticket.condition).asleep.contains t) ticket.limit.time?
  settle t k (← act (Ownership.recheck t k ticket))

/-- Gives a token back; with the outermost block the session ends. -/
def release (k : Ref .token) : Steps ε κ Value := do
  match ← act (Ownership.release k) with
  | none => return .none
  | some session =>
    let _ ← send session .close []
    let name ← readAttr session Session.threadNameField
    let elapsed ← readAttr session "elapsed"
    act (Act.log .debug .session fun w => do
      return "Walk finished on thread " ++ (← w.plain name) ++ " after " ++
        (← w.durationText elapsed) ++ "s")
    return .none

/-- A failure of what gets or gives back a token for a block; the signal that ends an iteration is
not passed on. -/
def unlessStop (f : Failure) : Steps ε κ Failure := do
  if (← read (·.failureClass f)) = .stopIteration then return .strayStop else return f

/-- How a block ends, given how it has ended itself and how giving back what it held has. -/
def conclude {α : Type} (block : Except Failure α) (last : Outcome) : Steps ε κ α := do
  match block, last with
  | .ok a, .ok _ => return a
  | .error f, .ok _ => throw f
  | .ok _, .error g => throw (← unlessStop g)
  | .error f, .error g => if f = g then throw f else throw (← unlessStop g)

/-- Begins a block: gets what it is to hold. What a block is given depends on what it holds. -/
def beginBlock (manager : Value) : Steps ε κ Value := do
  match manager with
  | .lock _ | .condition .. => return .bool true
  | .holding k =>
    match ← (send (.token k) .acquire []).outcome with
    | .ok session => return session
    | .error f => throw (← unlessStop f)
  | v => throw (.notManager (← read (·.typeName v)))

/-- Ends a block: gives back what it held. -/
def endBlock {α : Type} (manager : Value) (block : Except Failure α) : Steps ε κ α := do
  match manager with
  | .holding k => conclude block (← (send (.token k) .release []).outcome)
  | _ => conclude block (.ok .none)

/-- Runs a block while holding the token of an object. -/
def hold (ownership : Value) (block : Steps ε κ Value) : Steps ε κ Value := do
  let manager ← send ownership .hold []
  let _ ← beginBlock manager
  endBlock manager (← block.outcome)

end Walk

end GuardedWalk
