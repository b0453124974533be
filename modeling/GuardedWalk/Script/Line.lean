import GuardedWalk.Script.Evaluate
import GuardedWalk.Walk

/-!
# The lines of a script

What a script does on a thread is a routine of a walk whose foreign code is the script itself. This
module has the parts that most actions are made of: evaluating terms, answering values and binding
names.

## Main definitions

* `GuardedWalk.Script.Line` — what a script does on a thread.
* `GuardedWalk.Script.value`, `target` — the value of a term or of a path at present.
* `GuardedWalk.Script.request` — calls what a value shows under a name.
* `GuardedWalk.Script.say` — makes an answer.
-/

set_option autoImplicit false

namespace GuardedWalk.Script

open Routine

/-- The further calls of scripts. -/
inductive ScriptCall where
  /-- A thread runs its steps. -/
  | thread (steps : List Step) (locals : Locals)

/-- What a script does on a thread. -/
abbrev Line (α : Type) : Type 1 := Walk.Steps Stage ScriptCall α

/-- The value that a term stands for at present. -/
def value (locals : Locals) (term : Term) : Line Value := act (evaluate locals term)

/-- The values that terms stand for at present. -/
def values (locals : Locals) (terms : List Term) : Line (List Value) :=
  act (evaluateAll locals terms)

/-- The value that a path leads to at present. -/
def target (locals : Locals) (p : Path) : Line Value := act (resolve locals p)

/-- The values that paths lead to at present. -/
def targets (locals : Locals) (ps : List Path) : Line (List Value) :=
  act (resolveAll locals ps)

/-- A datum as a value. -/
def datum (d : Datum) : Line Value := act d.make

/-- The event whose entry method has a name. -/
def event (method : Datum) : Line Value := act (eventNamed method)

/-- The value that a path leads to at present; none if there is no path. -/
def targetOr (locals : Locals) : Option Path → Line Value
  | some p => target locals p
  | none => return .none

/-- Makes an answer. -/
def say (a : Answering Answer) : Line Answer := act a

/-- The answer that stands for a value. -/
def sayValue (v : Value) : Line Answer := say (answerValue v)

/-- The answer that stands for a session or its absence. -/
def saySession (v : Value) : Line Answer := say (answerSession v)

/-- The answer that stands for an attribute of a value. -/
def sayAttr (v : Value) (name : String) : Line Answer := do sayValue (← Walk.readAttr v name)

/-- An attribute of a value, as it is when the script has ended. -/
def sayHeld (v : Value) (name : String) : Line Answer := say (holdAttr v name)

/-- Calls what a value shows under a name. That is looked up before the arguments are worked out. -/
def request (v : Value) (name : String) (args : Line (List Value)) : Line Value := do
  let callee ← Walk.readAttr v name
  Walk.apply callee (← args)

/-- The answer that stands for the reply of a value to a message. -/
def sayReply (v : Value) (m : Message) (args : Line (List Value)) : Line Answer := do
  sayValue (← request v m.name args)

/-- Sends a message; what the reply is does not matter. -/
def tell (v : Value) (m : Message) (args : Line (List Value)) : Line Answer := do
  let _ ← request v m.name args
  return .none

/-- Binds a name, if there is one. -/
def bindTo (name : Option String) (v : Value) : Line Unit :=
  match name with
  | some name => change (onStage (·.bindName name v))
  | none => return

/-- Binds a name, if there is one, and answers the value. -/
def bindAndSay (name : Option String) (v : Value) : Line Answer := do
  bindTo name v
  sayValue v

end GuardedWalk.Script
