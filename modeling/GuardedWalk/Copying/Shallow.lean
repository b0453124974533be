import GuardedWalk.World.Construct

/-!
# Copies of one object

A copy of an object is an object of its class with the same attributes. The guard of a document node
stays behind. An exception is made anew from the arguments of its text, which may fail, and its
attributes are then set again; a method is looked up again under its name.

## Main definitions

* `GuardedWalk.Copying.isShared` — whether copies keep a value as it is.
* `GuardedWalk.Copying.handedOn` — the attributes that a copy gets.
* `GuardedWalk.Copying.blank` — an object of the class of another one, without attributes.
* `GuardedWalk.Copying.shallow` — a copy of one object.

## Main results

* `GuardedWalk.Copying.shallow_shared` — plain data are kept as they are.
-/

set_option autoImplicit false

namespace GuardedWalk

namespace Copying

variable {ε : Type}

open Act

/-- Whether a copy keeps a value as it is, instead of duplicating it. -/
def isShared : Value → Bool
  | .none | .bool _ | .int _ | .float _ | .nan _ | .text _ | .mode _ | .event _ | .function _
  | .ownAccept _ | .wrapper _ | .block .. => true
  | _ => false

/-- The attributes that a copy of an object gets. -/
def handedOn (w : World ε) : Value → Attributes
  | .node r => (w.nodes.get r).unguarded
  | v => (w.own? v).getD []

/-- The class of something that cannot be copied because it stands for something outside the
program. -/
def uncopyable? : Value → Option String
  | .lock _ => some "_thread.lock"
  | .condition .. => some "_thread.RLock"
  | .holding _ => some "generator"
  | _ => none

/-- An object of the class of another one, without attributes. -/
def blank (v : Value) : Act ε Value := make fun w =>
  match v with
  | .node r =>
    let (r, w) := w.newNode ⟨(w.nodes.get r).cls, []⟩
    (.node r, w)
  | .config _ =>
    (.config w.configs.next, { w with configs := w.configs.add default })
  | .session _ =>
    (.session w.sessions.next, { w with sessions := w.sessions.add default })
  | .guard _ =>
    (.guard w.guards.next, { w with guards := w.guards.add default })
  | .adapter _ =>
    (.adapter w.broadcasts.next, { w with broadcasts := w.broadcasts.add default })
  | .token _ =>
    (.token w.tokens.next, { w with tokens := w.tokens.add default })
  | .walker _ =>
    (.walker w.walkers.next, { w with walkers := w.walkers.add default })
  | .policy r =>
    let x := { w.policies.get r with attributes := [] }
    (.policy w.policies.next, { w with policies := w.policies.add x })
  | .observer r =>
    let x := { w.observers.get r with attributes := [] }
    (.observer w.observers.next, { w with observers := w.observers.add x })
  | .visitor r =>
    let x := { w.visitors.get r with attributes := [] }
    (.visitor w.visitors.next, { w with visitors := w.visitors.add x })
  | .parked r =>
    let x := { w.parked.get r with attributes := [] }
    (.parked w.parked.next, { w with parked := w.parked.add x })
  | .condition r _ =>
    (.condition r w.conditions.next, { w with conditions := w.conditions.add default })
  | other => (other, w)

/-- Gives an object attributes. -/
def restore (v : Value) (a : Attributes) : Act ε Unit :=
  change (·.modifyOwn v fun b => a.foldl (fun b p => b.set p.1 p.2) b)

/-- A copy of one object, with the same values in it. -/
def shallow (v : Value) : Act ε Value := do
  match v with
  | .tuple _ | .holding _ => return v
  | .list r => addList (← see (·.items r))
  | .dictionary r => addDictionary (← see fun w => (w.dictionaries.get r).copied)
  | .exception r =>
    let e ← see (·.exceptions.get r)
    let copy := .exception (← makeException e.cls (← see (·.argsOf r)))
    restore copy e.attributes
    return copy
  | .method r =>
    let x ← see (·.methods.get r)
    if x.typeName = "method" then read x.self x.message.name else return v
  | .lock _ => throw (.uncopyable "_thread.lock")
  | v =>
    if isShared v then return v
    let attributes ← see (handedOn · v)
    let copy ← blank v
    restore copy attributes
    return copy

/-- Plain data are kept as they are. -/
theorem shallow_shared {v : Value} (h : isShared v = true) :
    (shallow v : Act ε Value) = pure v := by
  cases v <;> simp_all [isShared, shallow]

end Copying

end GuardedWalk
