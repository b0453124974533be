import GuardedWalk.Limit
import GuardedWalk.World.Act

/-!
# The ownership token of a walker

A walker walks on one thread at a time. The first entry on a thread takes the token and opens a
session, further entries on that thread nest, and the session ends with the outermost of them.
Another thread waits for the token: it is woken when the token is released or the wait is cancelled,
and looks again as soon as it gets the token's lock, so others may have come first.

The acts of this module are the sections that run under the lock.

## Main definitions

* `GuardedWalk.Entry`, `Ticket` — how an attempt to get a token goes on.
* `GuardedWalk.Ownership.enter` — an entry, up to its end or to the start of a wait.
* `GuardedWalk.Ownership.recheck` — a waiting thread looks again.
* `GuardedWalk.Ownership.release` — a block that holds the token ends.
* `GuardedWalk.Ownership.cancel` — every waiting thread is told to give up.
* `GuardedWalk.Ownership.isOwned` — whether the session in flight runs on a thread.

## Main results

* `GuardedWalk.Ownership.contend_idle` — whoever looks at an idle token takes it.
-/

set_option autoImplicit false

namespace GuardedWalk

/-- What a waiting thread remembers of the moment at which it came. -/
structure Ticket where
  /-- How often waits had been cancelled by then. -/
  generation : Value
  /-- When the thread gives up. -/
  limit : Limit
  /-- What it waits on. -/
  condition : Ref .condition
deriving DecidableEq, Repr

/-- How an attempt to get the token goes on. -/
inductive Entry where
  /-- The thread already held the token. -/
  | nested
  /-- The thread has taken the token and opened a session. -/
  | opened
  /-- The thread waits, with a ticket. -/
  | waits (ticket : Ticket)
deriving DecidableEq, Repr

namespace World

variable {ε : Type}

/-- A number as a value. -/
def newNumber (w : World ε) : Value.Number → Value × World ε
  | .whole i => (.int i, w)
  | .float x => w.newFloat x

/-- A value as it is counted up by one; texts and tuples can only be put together with others of
their type, and lists only with what has elements. -/
def increased (w : World ε) (v : Value) : Except Failure Value.Number :=
  match v with
  | .text _ | .tuple _ => .error (.notConcatenable (w.typeName v))
  | .list _ => .error (.notIterable "int")
  | v =>
    match v.number? with
    | some n => .ok (n.shifted 1)
    | none => .error (.notOperands "+=" (w.typeName v) "int")

/-- A value as it is counted down by one. -/
def decreased (w : World ε) (v : Value) : Except Failure Value.Number :=
  match v.number? with
  | some n => .ok (n.shifted (-1))
  | none => .error (.notOperands "-=" (w.typeName v) "int")

end World

namespace Ownership

variable {ε : Type}

open Act

/-- An attribute of a token. -/
def field (k : Ref .token) (name : String) : Act ε Value := own (.token k) name

/-- Counts an attribute of a token up. -/
def countUp (k : Ref .token) (name : String) : Act ε Unit := do
  let v ← field k name
  let n ← look (·.increased v)
  setOwn (.token k) name (← make (·.newNumber n))

/-- Counts an attribute of a token down. -/
def countDown (k : Ref .token) (name : String) : Act ε Unit := do
  let v ← field k name
  let n ← look (·.decreased v)
  setOwn (.token k) name (← make (·.newNumber n))

/-- Takes the lock of a token. -/
def lock (k : Ref .token) : Act ε Unit := do checkLock (← field k Token.conditionField)

/-- What has no threads that wait for it has no method for that. -/
def noCondition {α : Type} (v : Value) (method : String) : Act ε α :=
  look fun w => .error (.missingAttribute (w.typeName v) method)

/-- Wakes all threads that wait on the condition of a token. -/
def notifyAll (k : Ref .token) : Act ε Unit := do
  match ← field k Token.conditionField with
  | .condition c _ => change fun w => { w with conditions := w.conditions.set c ⟨[]⟩ }
  | v => noCondition v "notify_all"

/-- Whether a session runs on a thread. -/
def runsOn (session : Value) (t : Thread) : Act ε Bool := do
  return (← read session Session.threadField).sameNumber t.number

/-- Opens a session for a thread and takes the token. -/
def take (t : Thread) (k : Ref .token) : Act ε Unit := do
  let session := .opened t.number (.text t.name) .none
  let s ← make fun w =>
    (Value.session w.sessions.next, { w with sessions := w.sessions.add session })
  setOwn (.token k) Token.sessionField s
  setOwn (.token k) Token.depthField (.int 1)

/-- The failure of a thread that has waited long enough: it tells the name of the owner and the
timeout as they are now. -/
def giveUp {α : Type} (t : Thread) (k : Ref .token) (session : Value) : Act ε α := do
  let owner ← read session Session.threadNameField
  let owner ← look (·.literal owner)
  let timeout ← field k Token.timeoutField
  throw (.busy owner t.name (← look (·.plain timeout)))

/-- A thread begins to wait for a token. -/
def fallAsleep (t : Thread) (k : Ref .token) (generation : Value) (limit : Limit) :
    Act ε Entry := do
  countUp k Token.waitingField
  match ← field k Token.conditionField with
  | .condition c _ =>
    if limit = .excessive then
      countDown k Token.waitingField
      throw .waitTooLong
    change fun w =>
      { w with conditions := w.conditions.modify c fun x => ⟨x.asleep ++ [t]⟩ }
    return .waits ⟨generation, limit, c⟩
  | v =>
    countDown k Token.waitingField
    noCondition v "wait"

/-- A thread looks at the token: it takes an idle one and opens a session; otherwise it gives up if
its wait was cancelled or has lasted long enough, and waits if not. -/
def contend (t : Thread) (k : Ref .token) (generation : Value) (limit : Limit) : Act ε Entry := do
  let session ← field k Token.sessionField
  if session = .none then
    take t k
    return .opened
  let now ← field k Token.generationField
  if !(← see (·.equal now generation)) then throw (.waitCancelled t.name)
  if limit.hasPassed (← see (·.clock)) then giveUp t k session
  fallAsleep t k generation limit

/-- Whether the session in flight runs on a thread. -/
def isOwned (t : Thread) (k : Ref .token) : Act ε Bool := do
  match ← field k Token.sessionField with
  | .none => return false
  | session => runsOn session t

/-- A thread enters: the owner nests, any other thread looks at the token with the limit that its
timeout sets. -/
def enter (t : Thread) (k : Ref .token) : Act ε Entry := do
  lock k
  if ← isOwned t k then
    countUp k Token.depthField
    return .nested
  let generation ← field k Token.generationField
  let timeout ← field k Token.timeoutField
  contend t k generation
    (← look fun w => Limit.ofOwnership w.clock (w.typeName timeout) timeout)

/-- A thread leaves its wait and looks again. -/
def recheck (t : Thread) (k : Ref .token) (ticket : Ticket) : Act ε Entry := do
  change fun w =>
    { w with conditions := w.conditions.modify ticket.condition fun x => ⟨x.asleep.erase t⟩ }
  countDown k Token.waitingField
  contend t k ticket.generation ticket.limit

/-- A block that holds the token ends; the outermost one ends the session, which is handed back, and
wakes all waiting threads. -/
def release (k : Ref .token) : Act ε (Option Value) := do
  lock k
  countDown k Token.depthField
  let depth ← field k Token.depthField
  if depth.number?.any (·.isPositive) then return none
  let session ← field k Token.sessionField
  setOwn (.token k) Token.sessionField .none
  notifyAll k
  return some session

/-- All waits that have begun are cancelled. -/
def cancel (k : Ref .token) : Act ε Unit := do
  lock k
  countUp k Token.generationField
  notifyAll k

/-- Whoever looks at an idle token takes it. -/
theorem contend_idle {w : World ε} {k : Ref .token}
    (h : w.ownValue (.token k) Token.sessionField = .none) (t : Thread) (generation : Value)
    (limit : Limit) :
    (contend t k generation limit).run w =
      ((take t k : Act ε Unit) >>= fun _ => (return Entry.opened : Act ε Entry)).run w := by
  simp [contend, field, own, see, of, h, ExceptT.run, bind, ExceptT.bind, ExceptT.mk,
    ExceptT.bindCont, StateT.bind]

end Ownership

end GuardedWalk
