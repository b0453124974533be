import GuardedWalk.Program
import GuardedWalk.Ownership

/-!
# Calls

What a program can call is a message to an object, a value that is called for itself, or a loop
over the elements of a value. What a message to an object comes to depends on the object at the
moment of the call. What foreign code does is a parameter.

## Main definitions

* `GuardedWalk.Turn` — what is done with each element of a loop.
* `GuardedWalk.Call` — everything that can be called.
* `GuardedWalk.Foreign` — what foreign code does when it is called.
-/

set_option autoImplicit false

namespace GuardedWalk

/-- What is done with each element of a loop. -/
inductive Turn where
  /-- It is handed to an entry method of a visitor. -/
  | handOver (visitor : Value) (e : Event)
  /-- It is told that an event begins. -/
  | before (event : Value) (args : List Value)
  /-- It is told that an event ends. -/
  | after
deriving DecidableEq, Repr

/-- Everything that can be called; `κ` are the further calls of foreign code. -/
inductive Call (κ : Type) where
  /-- A message to an object. -/
  | send (target : Value) (m : Message) (args : List Value)
  /-- A value that is called. -/
  | apply (callee : Value) (args : List Value)
  /-- A turn for each element of something that has not been visited yet. -/
  | each (cursor : World.Cursor) (turn : Turn)
  /-- The wait for a token. -/
  | await (token : Ref .token) (ticket : Ticket)
  /-- A further call of foreign code. -/
  | foreign (c : κ)
deriving DecidableEq, Repr

/-- What foreign code does when it is called on a thread. -/
structure Foreign (ε κ : Type) where
  /-- A node of a foreign class is traversed, by the traversal of its class or by its own. -/
  accept : Thread → (own : Bool) → Ref .node → (visitor : Value) → Routine ε (Call κ) Value
  /-- A scripted observer is told that an event begins. -/
  before : Thread → Ref .observer → (event : Value) → List Value → Routine ε (Call κ) Value
  /-- A scripted observer is told that an event ends, and which one that is. -/
  after : Thread → Ref .observer → (event : Value) → Routine ε (Call κ) Value
  /-- A policy of the user is asked. -/
  handle : Thread → Ref .policy → (node visitor : Value) → Routine ε (Call κ) Value
  /-- An entry method of a visitor is called. -/
  method : Thread → Ref .visitor → Event → List Value → Routine ε (Call κ) Value
  /-- An attribute of a node cannot be assigned. -/
  obstruct : Obstruction ε
  /-- A further call. -/
  further : Thread → κ → Routine ε (Call κ) Value

namespace Walk

variable {ε κ : Type}

/-- The programs of a walk. -/
abbrev Steps (ε κ α : Type) : Type 1 := Routine ε (Call κ) α

/-- Sends a message. -/
def send (target : Value) (m : Message) (args : List Value) : Steps ε κ Value :=
  Routine.invoke (.send target m args)

/-- Calls a value. -/
def apply (callee : Value) (args : List Value) : Steps ε κ Value :=
  Routine.invoke (.apply callee args)

/-- The value of an attribute of a value. -/
def readAttr (v : Value) (name : String) : Steps ε κ Value := Routine.act (Act.read v name)

/-- The value of an attribute that a value carries itself. -/
def own (v : Value) (name : String) : Steps ε κ Value := Routine.act (Act.own v name)

/-- Adds an element to the end of what an object keeps in an attribute. -/
def appendTo (v : Value) (field : String) (x : Value) : Steps ε κ Unit := do
  let _ ← send (← own v field) .append [x]

/-- Takes a turn for each element of a value. -/
def forEach (v : Value) (turn : Turn) : Steps ε κ Value := do
  Routine.invoke (.each (← Routine.examine (·.begin v)) turn)

/-- The turn of one element. -/
def takeTurn (x : Value) : Turn → Steps ε κ Value
  | .handOver visitor e => send visitor (.entry e) [x]
  | .before event args => send x .before (event :: args)
  | .after => send x .after []

/-- A turn for each element that has not been visited yet. The elements are looked at anew for each
turn, so changes are noticed. -/
def each (cursor : World.Cursor) (turn : Turn) : Steps ε κ Value := do
  match ← Routine.examine (·.advance cursor) with
  | none => return .none
  | some (x, cursor) =>
    let _ ← takeTurn x turn
    Routine.invoke (.each cursor turn)

end Walk

end GuardedWalk
