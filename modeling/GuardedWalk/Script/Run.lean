import GuardedWalk.Machine
import GuardedWalk.Script.Perform

/-!
# Running scripts

The foreign code of a script are the actions given to its observers, visitors, policies and nodes.
They run on the thread that called them, with locals for what they were called with.

## Main definitions

* `GuardedWalk.Script.scripted` — what the foreign code of a script does.
* `GuardedWalk.Script.run` — the answers to the steps of a script.
* `GuardedWalk.Script.describeEvent`, `eventFor` — what the catalogue says of an event.
-/

set_option autoImplicit false

namespace GuardedWalk.Script

open Routine

/-- The locals that stand for arguments: `$0`, `$1` and so on. -/
def argumentLocals (args : List Value) : Locals :=
  args.zipIdx.map fun p => ("$" ++ toString p.2, p.1)

/-- The phase in which a rule applies. -/
def Rule.phase : Rule → Phase
  | .mk phase _ _ _ => phase

/-- The event that a rule is for, if it is for only one. -/
def Rule.event? : Rule → Option String
  | .mk _ event _ _ => event

/-- Whether a rule that has matched a number of notifications acts at the last of them. -/
def Rule.actsAt (matched : Int) : Rule → Bool
  | .mk _ _ none _ => true
  | .mk _ _ (some nth) _ => nth = matched

/-- The actions of a rule. -/
def Rule.steps : Rule → List Step
  | .mk _ _ _ steps => steps

/-- The rule of an observer at a place, if it applies in a phase. -/
def ruleAt? (s : Scene) (code place : Nat) (phase : Phase) : Option Rule :=
  match (s.foreign.rules.getD code [])[place]? with
  | some r => if r.rule.phase = phase then some r.rule else none
  | none => none

/-- Counts a notification for the rule at a place; says what the rule does about it. -/
def countMatch (code place : Nat) (s : Scene) : List Step × Scene :=
  let rules := s.foreign.rules.getD code []
  match rules[place]? with
  | none => ([], s)
  | some r =>
    let r : RuleState := { r with matched := r.matched + 1 }
    (if r.rule.actsAt r.matched then r.rule.steps else [],
     onStage (fun x => { x with rules := x.rules.setIfInBounds code (rules.set place r) }) s)

/-- Whether what a notification is about is the event of a name, if one is asked for. What is
neither an event nor absent must show a name. -/
def concerns (e : Value) : Option String → Line Bool
  | none => return true
  | some name => do
    if ← examine (·.isTrue e) then
      return (← Walk.readAttr e Recording.nameField) = .text name
    else return false

/-- Tries the rules at some places, in order. -/
def tryRules (t : Thread) (locals : Locals) (code : Nat) (phase : Phase) (e : Value) :
    List Nat → Line Unit
  | [] => return
  | place :: rest => do
    if let some rule := ← read (ruleAt? · code place phase) then
      if ← concerns e rule.event? then
        nestedAll t locals (← update (countMatch code place))
    tryRules t locals code phase e rest

/-- A scripted observer is notified. -/
def followRules (t : Thread) (o : Ref .observer) (phase : Phase) (e : Value) (args : List Value) :
    Line Value := do
  let code ← read fun s => (s.observers.get o).code
  let count ← read fun s => (s.foreign.rules.getD code []).length
  tryRules t (("$self", .observer o) :: argumentLocals args) code phase e (List.range count)
  return .none

/-- The code that belongs to the class of a node. -/
def codeOf (s : Scene) (r : Ref .node) : NodeCode :=
  match (s.nodes.get r).cls with
  | .foreign c => s.foreign.nodeCode.getD c.id default
  | .document _ => default

/-- A node of a foreign class is traversed. -/
def traverseStub (t : Thread) (own : Bool) (r : Ref .node) (visitor : Value) : Line Value := do
  let code ← read (codeOf · r)
  let locals : Locals := [("$self", .node r), ("$visitor", visitor)]
  nestedAll t locals (if own then code.ownAccept else code.accept)
  value locals code.returns

/-- A policy of a script is asked. -/
def answerAttempt (t : Thread) (p : Ref .policy) (node visitor : Value) : Line Value := do
  let code ← read fun s =>
    match (s.policies.get p).body with
    | .custom code => s.foreign.policyCode.getD code default
    | _ => default
  let locals : Locals := [("$self", .policy p), ("$node", node), ("$visitor", visitor)]
  nestedAll t locals code.steps
  value locals code.returns

/-- A method of a visitor is called. -/
def callMethod (t : Thread) (v : Ref .visitor) (e : Event) (args : List Value) :
    Line Value := do
  let code ← read fun s => s.foreign.methodCode.getD (s.visitors.get v).code []
  nestedAll t (("$self", .visitor v) :: argumentLocals args)
    ((code.lookup e.methodName).getD [])
  return .none

/-- A thread has ended; `death` is what ended it, if anything but its last step did. -/
def ThreadRecord.over (death : Option Failure) (r : ThreadRecord) : ThreadRecord :=
  { r with ended := true, death }

/-- A thread runs its steps. -/
def runThread (t : Thread) : ScriptCall → Line Value
  | .thread steps locals => do
    match ← (entries t locals steps).outcome with
    | .ok () => change (onStage (·.modifyThread t (.over none)))
    | .error f => change (onStage (·.modifyThread t (.over f)))
    return .none

/-- What the foreign code of a script does. -/
def scripted : Foreign Stage ScriptCall where
  accept := traverseStub
  before t o e args := followRules t o .before e args
  after t o e := followRules t o .after e []
  handle := answerAttempt
  method := callMethod
  obstruct := obstruct
  further := runThread

/-- The world of a script before it runs. -/
def opening (threshold : Severity) : Scene := { World.empty Stage.initial with threshold }

/-- A bound for the number of steps of a script. -/
def fuel : Nat := Nat.pow 2 26

/-- The answers of the main thread of a script that has ended. There are none if the thread has
died, or if something that was answered cannot be written. -/
def answersOf (s : Scene) : Except Failure (List Datum) :=
  match s.foreign.thread? .main with
  | none => .ok []
  | some r =>
    match r.death with
    | some f => .error f
    | none => Answer.settledAll s r.entries.reverse

/-- The answers to the steps of a script; nothing if it does not end. -/
def run (threshold : Severity) (steps : List Step) : Option (Except Failure (List Datum)) :=
  let main : Task Stage (Call ScriptCall) := .calling .main (.foreign (.thread steps []))
  (Machine.run (Walk.body scripted) fuel ⟨opening threshold, main, []⟩).map answersOf

/-- Texts as data. -/
def textData (texts : List String) : Datum := .list (texts.map .text)

/-- What the catalogue says of an event. -/
def describeEvent (e : Event) : Datum :=
  .record ["name", "value", "method_name", "str", "params", "composite"]
    [.text e.name, .text e.methodName, .text e.methodName, .text e.methodName,
     textData e.params, .bool e.isComposite]

/-- The event whose entry method has a name; anything else is a failure. -/
def eventFor (method : Datum) : Except Failure Datum :=
  match (eventNamed method).run (opening .warning) with
  | (.ok (.event e), _) => .ok (describeEvent e)
  | (.ok _, _) => .ok .none
  | (.error f, _) => .error f

end GuardedWalk.Script
