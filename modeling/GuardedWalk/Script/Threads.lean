import GuardedWalk.Script.Line

/-!
# The threads of a script

A script can start threads that run steps of their own. Whoever starts one waits until it has ended
or is blocked, so that what follows finds it in a known state.

## Main definitions

* `GuardedWalk.Script.spawn`, `join` — starts a thread; waits for its end.
* `GuardedWalk.Script.threadWord` — what has become of a thread.
* `GuardedWalk.Script.threadOf` — the thread of a name.
* `GuardedWalk.Script.Sleeper.args` — how a wake tells which suspended threads it is meant for.
-/

set_option autoImplicit false

namespace GuardedWalk.Script

open Routine

/-- Whether a thread is suspended by a policy. -/
def isParked (s : Scene) (t : Thread) : Bool :=
  s.parked.cells.any fun call => call.thread = t && call.asleep && !call.woken

/-- Whether a thread sleeps until it is given a token. -/
def isAsleep (s : Scene) (t : Thread) : Bool := s.conditions.cells.any (·.asleep.contains t)

/-- Whether a thread has ended. -/
def hasEnded (s : Scene) (t : Thread) : Bool := (s.foreign.thread? t).any (·.ended)

/-- What has become of a thread. -/
def threadWord (s : Scene) (t : Thread) : String :=
  if hasEnded s t then "done" else if isParked s t then "parked" else "waiting"

/-- Starts a thread and waits until it has ended or, unless its end is awaited, is blocked. -/
def spawn (locals : Locals) (name : String) (steps : List Step) (untilDone : Bool) :
    Line Answer := do
  let t ← update fun s =>
    let t : Thread := ⟨s.foreign.threads.length, name⟩
    (t, onStage (fun x => { x with threads := ⟨t, [], [], false, none⟩ :: x.threads }) s)
  launch t (.foreign (.thread steps locals))
  let _ ← await (fun s => hasEnded s t || (!untilDone && (isParked s t || isAsleep s t))) none
  return .text (← read (threadWord · t))

/-- The thread of a name among those that a script has started. -/
def threadOf (name : Datum) : Line Thread := do
  let key ← act (do Act.look (·.asKey (← name.make)))
  let found ←
    match key with
    | .text s => read (·.foreign.threadNamed? s)
    | _ => pure none
  match found with
  | some t => return t
  | none => throw (.missingKey (← examine (·.literal key)))

/-- The entries of the steps of a thread; none if something else has ended it. -/
def ThreadRecord.answer (r : ThreadRecord) : Answer :=
  if r.death.isSome then .none else .list r.entries.reverse

/-- Waits for the end of a thread; answers the entries of its steps. -/
def join (name : Datum) : Line Answer := do
  let t ← threadOf name
  let _ ← await (hasEnded · t) none
  return ((← read (·.foreign.thread? t)).map (·.answer)).getD .none

/-- The arguments with which a wake tells which suspended threads it is meant for: none at all, or
the number of a thread. -/
def Sleeper.args : Sleeper → Line (List Value)
  | .all => return []
  | .named name => do return [(← threadOf name).number]
  | .nobody => return [.int (-1)]

end GuardedWalk.Script
