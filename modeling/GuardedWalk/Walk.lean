import GuardedWalk.Walk.Answer
import GuardedWalk.Walk.Hold
import GuardedWalk.Walk.Notify

/-!
# Walks

An entry method notifies the observers of its event, lets the node that the event is about hand its
parts on, and notifies the observers again. All entry methods but announcements hold the walker's
token meanwhile. What a walker does between the notifications is a value of its own, so that it can
be passed on from one of its methods to the next. A node hands each of its parts on by calling an
entry method of its visitor; when a guard has been put on the node, visitors that may not traverse
it are answered by the policy of that guard instead.

## Main definitions

* `GuardedWalk.Walk.walkerEntry`, `visit`, `broadcast` — the methods of a walker.
* `GuardedWalk.Walk.runBlock` — what a walker does between the notifications of an event.
* `GuardedWalk.Walk.traverse` — a node hands its parts on.
* `GuardedWalk.Walk.answer` — what an object does about a message.
* `GuardedWalk.Walk.body` — what each call stands for.
-/

set_option autoImplicit false

namespace GuardedWalk

namespace Walk

open Routine

variable {ε κ : Type}

/-- The block of a step result: the name of the step, then the argument and the exception that are
present. -/
def stepResultBlock (self : Value) : List Value → Steps ε κ Value
  | [keyword, stepMatch, multilineArg, status, exception, sourceIndent, background] => do
    let _ ← send self (.entry .stepName) [keyword, stepMatch, status, sourceIndent, background]
    if multilineArg ≠ .none then
      let _ ← send self (.entry .multilineArg) [multilineArg]
    if exception ≠ .none then
      let _ ← send self (.entry .exception) [exception, status]
    return .none
  | _ => return .none

/-- The session in flight remembers an outline table. -/
def enterTable (F : Foreign ε κ) (self table : Value) : Steps ε κ Unit := do
  let session ← readAttr (← own self Walker.ownershipField) "session"
  act (Act.assign F.obstruct session Session.tableField table)

/-- What a walker does between the notifications of an event. -/
def runBlock (F : Foreign ε κ) (self : Value) (e : Event) (args : List Value) : Steps ε κ Value :=
  match e with
  | .stepResult => stepResultBlock self args
  | .outlineTable => do
    enterTable F self (args.headD .none)
    let _ ← send (args.headD .none) .accept [self]
    return .none
  | _ => send (args.headD .none) .accept [self]

/-- Runs a block, if there is one, between the notifications of an event. What notifies the
observers must know how to before the arguments of the event are looked at. -/
def broadcast (self e args block : Value) : Steps ε κ Value := do
  let notifier ← own self Walker.broadcastField
  let _ ← examine (·.member notifier Message.before.name)
  let args ← examine (·.spread args)
  let _ ← send notifier .before (e :: args)
  if block ≠ .none then
    let _ ← apply block []
  let _ ← send (← own self Walker.broadcastField) .after [e]
  return .none

/-- Runs a block, if there is one, between the notifications of an event, holding the token of the
walker meanwhile. -/
def visit (self e args block : Value) : Steps ε κ Value := do
  let ownership ← own self Walker.ownershipField
  let _ ← hold ownership (send self .broadcast [e, args, block])
  return .none

/-- The entry methods of a walker. -/
def walkerEntry (r : Ref .walker) (e : Event) (args : List Value) : Steps ε κ Value := do
  let row ← update (·.storeTuple args)
  let given := [.event e, .tuple row]
  let _ ←
    if e = .announce then send (.walker r) .broadcast given
    else if e.isComposite then send (.walker r) .visit (given ++ [.block r e row])
    else send (.walker r) .visit given
  return .none

/-- The entry methods of other visitors: the call is noted, then foreign code runs. -/
def visitorEntry (F : Foreign ε κ) (t : Thread) (r : Ref .visitor) (e : Event)
    (args : List Value) : Steps ε κ Value := do
  let items ← act (Act.addList args)
  let note ← act (Act.addList [.text e.methodName, items])
  appendTo (.visitor r) Observer.callsField note
  F.method t r e args

/-- Hands one part of a node on. -/
def handOn (r : Ref .node) (visitor : Value) : Part → Steps ε κ Value
  | .each field e => do forEach (← read (·.fieldOf r field)) (.handOver visitor e)
  | .optional field e => do
    let v ← read (·.fieldOf r field)
    if v = .none then return .none else send visitor (.entry e) [v]
  | .always e fields => do
    send visitor (.entry e) (← read fun w => fields.map (w.fieldOf r))

/-- Hands parts of a node on, one after the other. -/
def handOnAll (r : Ref .node) (visitor : Value) : List Part → Steps ε κ Value
  | [] => return .none
  | part :: rest => do
    let _ ← handOn r visitor part
    handOnAll r visitor rest

/-- The traversal that the class of a node defines. -/
def traverse (F : Foreign ε κ) (t : Thread) (r : Ref .node) (visitor : Value) :
    Steps ε κ Value := do
  match (← read (·.nodes.get r)).cls with
  | .document c => handOnAll r visitor c.parts
  | .foreign _ => F.accept t false r visitor

/-- What an object does about a message that comes with as many arguments as it should. -/
def answer (F : Foreign ε κ) (t : Thread) (self : Value) (m : Message) (args : List Value) :
    Steps ε κ Value :=
  match m, self, args with
  | .accept, .node r, visitor :: _ => traverse F t r visitor
  | .entry e, .walker r, args => walkerEntry r e args
  | .visit, .walker r, e :: row :: rest => visit (.walker r) e row (rest.headD .none)
  | .broadcast, .walker r, e :: row :: rest => broadcast (.walker r) e row (rest.headD .none)
  | .entry e, .visitor r, args => visitorEntry F t r e args
  | .before, .observer o, e :: args => hearBefore F t o e args
  | .after, .observer o, _ => hearAfter F t o
  | .onEvent, .observer o, phase :: e :: args => hearEvent o phase e args
  | .before, .adapter b, e :: args => before b e args
  | .after, .adapter b, e :: _ => after b e
  | .handle, .policy p, node :: visitor :: _ => handle F t p node visitor
  | .resume, .policy p, args => send (.policy p) .wake [args.headD .none, .bool false]
  | .cancel, .policy p, args => send (.policy p) .wake [args.headD .none, .bool true]
  | .cancel, .walker r, _ => do
    let _ ← send (← own (.walker r) Walker.ownershipField) .cancel []
    return .none
  | .install, .guard g, node :: _ => do
    return .bool (← atomically fun w => World.install F.obstruct w g node)
  | .dispatch, .guard g, node :: inner :: visitor :: _ => dispatch t g node inner visitor
  | .isCanonical, _, visitor :: _ => canonical visitor
  | .hold, .token k, _ => return .holding k
  | .acquire, .token k, _ => acquire t k
  | .release, .token k, _ => release k
  | .isOwned, .token k, _ => do return .bool (← act (Ownership.isOwned t k))
  | .clear, .observer o, _ => forget o
  | m, self, args => act (Reply.reply F.obstruct self m args)

/-- What an object does about a message; the number of arguments is looked at first. -/
def run (F : Foreign ε κ) (t : Thread) (self : Value) (m : Message) (args : List Value) :
    Steps ε κ Value := do
  match ← read (·.argumentProblem? self m args.length) with
  | some f => throw f
  | none => answer F t self m args

/-- A function must be given as many arguments as it has parameters. -/
def checkArguments (callee : Value) (parameters : List String) (args : List Value) :
    Steps ε κ Unit := do
  let name ← read (·.fullName callee)
  match (Parameters.exactly parameters).problem? name 0 args.length with
  | some f => throw f
  | none => return

/-- A wrapper asks the guard that has tagged the node it was made for. -/
def callWrapper (r : Ref .wrapper) (args : List Value) : Steps ε κ Value := do
  checkArguments (.wrapper r) ["visitor"] args
  let wrapper ← read (·.wrappers.get r)
  let owner ← readAttr wrapper.node Node.guardField
  send owner .dispatch (wrapper.node :: wrapper.inner :: args)

/-- A node traverses in the way that it was given when it was made. -/
def callOwnAccept (F : Foreign ε κ) (t : Thread) (r : Ref .node) (args : List Value) :
    Steps ε κ Value := do
  checkArguments (.ownAccept r) ["visitor"] args
  F.accept t true r (args.headD .none)

/-- A walker does what it does between the notifications of an event. -/
def callBlock (F : Foreign ε κ) (r : Ref .walker) (e : Event) (row : Ref .tuple)
    (args : List Value) : Steps ε κ Value := do
  checkArguments (.block r e row) [] args
  runBlock F (.walker r) e (← read (·.row row))

/-- A value is called. -/
def call (F : Foreign ε κ) (t : Thread) (callee : Value) (args : List Value) : Steps ε κ Value := do
  match callee with
  | .method r =>
    let method ← read (·.methods.get r)
    run F t method.self method.message args
  | .function m => run F t .none m args
  | .wrapper r => callWrapper r args
  | .ownAccept r => callOwnAccept F t r args
  | .block r e row => callBlock F r e row args
  | other => throw (.notCallable (← read (·.typeName other)))

/-- A message is sent: what the object shows under the name of the message is called. -/
def deliver (F : Foreign ε κ) (t : Thread) (target : Value) (m : Message) (args : List Value) :
    Steps ε κ Value := do
  match ← examine (·.member target m.name) with
  | .bound m => run F t target m args
  | .function m => run F t .none m args
  | .value v => call F t v args
  | .number _ => throw (.notCallable "float")
  | .row _ => throw (.notCallable "tuple")
  | .listing _ => throw (.notCallable "list")

/-- What each call stands for on a thread. -/
def body (F : Foreign ε κ) (t : Thread) : Call κ → Steps ε κ Value
  | .send target m args => deliver F t target m args
  | .apply callee args => call F t callee args
  | .each cursor turn => each cursor turn
  | .await k ticket => awaitToken t k ticket
  | .foreign c => F.further t c

end Walk

end GuardedWalk
