import GuardedWalk.Documentation

/-!
# The world of a walk

All objects that walks share and change, with the log and the time. Foreign code — scripted
observers, visitors, policies and nodes of foreign classes — keeps a state of a type of its own
beside them.

## Main definitions

* `GuardedWalk.World` — all objects, the log and the time.
* `GuardedWalk.World.typeName` — the name of the class of a value.
* `GuardedWalk.World.own?`, `modifyOwn` — the attributes that a value carries.
* `GuardedWalk.World.newList`, `newNode` and others — adding objects.
-/

set_option autoImplicit false

namespace GuardedWalk

/-- All objects, the log and the time. The type `ε` is that of the state of foreign code. -/
structure World (ε : Type) where
  nans : Store .nan Unit
  nodes : Store .node Node
  lists : Store .list (Array Value)
  /-- The lists that cannot be changed. -/
  tuples : Store .tuple (Array Value)
  dictionaries : Store .dictionary Dictionary
  exceptions : Store .exception ExceptionObject
  configs : Store .config Config
  policies : Store .policy Policy
  parked : Store .parked ParkedCall
  locks : Store .lock Unit
  conditions : Store .condition Condition
  tokens : Store .token Token
  sessions : Store .session Session
  guards : Store .guard Guard
  broadcasts : Store .adapter Broadcast
  walkers : Store .walker Walker
  observers : Store .observer Observer
  visitors : Store .visitor Visitor
  wrappers : Store .wrapper Wrapper
  methods : Store .method Method
  /-- The attributes of values that are no objects of their own. -/
  noted : List (Value × Attributes)
  /-- The least severity that is logged. -/
  threshold : Severity
  /-- The log records, the latest first. -/
  journal : List LogRecord
  /-- The present time, in nanoseconds. -/
  clock : Nat
  /-- The state of foreign code. -/
  foreign : ε

namespace World

variable {ε : Type}

/-- A world without objects. -/
def empty (foreign : ε) : World ε where
  nans := .empty
  nodes := .empty
  lists := .empty
  tuples := .empty
  dictionaries := .empty
  exceptions := .empty
  configs := .empty
  policies := .empty
  parked := .empty
  locks := .empty
  conditions := .empty
  tokens := .empty
  sessions := .empty
  guards := .empty
  broadcasts := .empty
  walkers := .empty
  observers := .empty
  visitors := .empty
  wrappers := .empty
  methods := .empty
  noted := []
  threshold := .warning
  journal := []
  clock := 0
  foreign

/-- Whether log records of a severity are kept. -/
def admits (w : World ε) (severity : Severity) : Bool := w.threshold.rank ≤ severity.rank

/-- Adds a log record, if it is grave enough; its text may fail, but only then. -/
def log (w : World ε) (severity : Severity) (channel : Channel) (text : Except Failure String) :
    Except Failure Unit × World ε :=
  if w.admits severity then
    match text with
    | .ok message => (.ok (), { w with journal := ⟨severity, channel, message⟩ :: w.journal })
    | .error f => (.error f, w)
  else (.ok (), w)

/-- Adds a log record with a text that does not fail, if it is grave enough. -/
def say (w : World ε) (severity : Severity) (channel : Channel) (message : String) : World ε :=
  (w.log severity channel (.ok message)).2

/-- The name of the class of a value, as it stands in texts about failures. -/
def typeName (w : World ε) : Value → String
  | .none => "NoneType"
  | .bool _ => "bool"
  | .int _ => "int"
  | .float _ | .nan _ => "float"
  | .text _ => "str"
  | .mode _ => "ForeignTraversalMode"
  | .event _ => "Event"
  | .list _ => "list"
  | .tuple _ => "tuple"
  | .dictionary _ => "dict"
  | .exception r => (w.exceptions.get r).cls.name
  | .node r => (w.nodes.get r).cls.name
  | .method r => (w.methods.get r).typeName
  | .function _ | .ownAccept _ | .wrapper _ | .block .. => "function"
  | .holding _ => "_GeneratorContextManager"
  | .lock _ => "_thread.lock"
  | .condition .. => "Condition"
  | .parked _ => "_ParkedCall"
  | .config _ => "WalkerConfig"
  | .policy r => (w.policies.get r).body.typeName
  | .token _ => "TraversalOwnership"
  | .session _ => "TraversalSession"
  | .guard _ => Guard.className
  | .adapter _ => "LegacyObserverAdapter"
  | .walker _ => "FeatureWalker"
  | .observer r => (w.observers.get r).cls.name
  | .visitor r => (w.visitors.get r).typeName

/-- The name of the class of a value. -/
def className (w : World ε) : Value → String
  | .lock _ => "lock"
  | v => w.typeName v

/-- The name of the class of the class of a value. -/
def metaName (w : World ε) : Value → String
  | .node r => if (w.nodes.get r).cls.isDocumentNode then "ABCMeta" else "type"
  | .policy _ | .holding _ => "ABCMeta"
  | .observer r => if (w.observers.get r).cls.isDeclared then "ABCMeta" else "type"
  | .mode _ | .event _ => "EnumType"
  | _ => "type"

/-- Which notifications a value has declared to take. -/
def observerKind (w : World ε) : Value → ObserverKind
  | .observer r => (w.observers.get r).cls.kind
  | _ => .unknown

/-- The observers among some values that are notified. -/
def notified (w : World ε) (observers : List Value) : List Value :=
  observers.filter fun v => w.observerKind v = .legacy

/-- The attributes that events, modes and functions have from the start. -/
def memberAttributes : Value → Attributes
  | .event e => [("_value_", .text e.methodName), ("_name_", .text e.name)]
  | .mode m => [("_value_", .text m.word), ("_name_", .text m.name)]
  | v => (v.describedFunction?.map Described.attributes).getD []

/-- The attributes of a value that is no object of its own. -/
def notedOf (w : World ε) (v : Value) : Attributes := (w.noted.lookup v).getD (memberAttributes v)

/-- The attributes that a value carries; none if it cannot carry any. -/
def own? (w : World ε) : Value → Option Attributes
  | .node r => if (w.nodes.get r).cls.hasAttributes then some (w.nodes.get r).attributes else none
  | .exception r => some (w.exceptions.get r).attributes
  | .config r => some (w.configs.get r).attributes
  | .policy r => some (w.policies.get r).attributes
  | .parked r => some (w.parked.get r).attributes
  | .token r => some (w.tokens.get r).attributes
  | .session r => some (w.sessions.get r).attributes
  | .guard r => some (w.guards.get r).attributes
  | .adapter r => some (w.broadcasts.get r).attributes
  | .walker r => some (w.walkers.get r).attributes
  | .observer r => some (w.observers.get r).attributes
  | .visitor r => some (w.visitors.get r).attributes
  | .wrapper r => some (w.wrappers.get r).attributes
  | .none | .bool _ | .int _ | .float _ | .nan _ | .text _ | .list _ | .tuple _ | .dictionary _
  | .method _ | .lock _ => none
  | v => some (w.notedOf v)

/-- Whether a value can have attributes; a method shows those of its function. -/
def hasDictionary (w : World ε) : Value → Bool
  | .method r => (w.methods.get r).typeName = "method"
  | v => (w.own? v).isSome

/-- Changes the attributes that a value carries. -/
def modifyOwn (w : World ε) (v : Value) (f : Attributes → Attributes) : World ε :=
  match v with
  | .node r =>
    { w with nodes := w.nodes.modify r fun x => { x with attributes := f x.attributes } }
  | .exception r =>
    { w with
      exceptions := w.exceptions.modify r fun x => { x with attributes := f x.attributes } }
  | .config r => { w with configs := w.configs.modify r fun x => ⟨f x.attributes⟩ }
  | .policy r =>
    { w with policies := w.policies.modify r fun x => { x with attributes := f x.attributes } }
  | .parked r =>
    { w with parked := w.parked.modify r fun x => { x with attributes := f x.attributes } }
  | .token r => { w with tokens := w.tokens.modify r fun x => ⟨f x.attributes⟩ }
  | .session r => { w with sessions := w.sessions.modify r fun x => ⟨f x.attributes⟩ }
  | .guard r => { w with guards := w.guards.modify r fun x => ⟨f x.attributes⟩ }
  | .adapter r => { w with broadcasts := w.broadcasts.modify r fun x => ⟨f x.attributes⟩ }
  | .walker r => { w with walkers := w.walkers.modify r fun x => ⟨f x.attributes⟩ }
  | .observer r =>
    { w with observers := w.observers.modify r fun x => { x with attributes := f x.attributes } }
  | .visitor r =>
    { w with visitors := w.visitors.modify r fun x => { x with attributes := f x.attributes } }
  | .wrapper r =>
    { w with wrappers := w.wrappers.modify r fun x => { x with attributes := f x.attributes } }
  | .none | .bool _ | .int _ | .float _ | .nan _ | .text _ | .list _ | .tuple _ | .dictionary _
  | .method _ | .lock _ => w
  | v => { w with noted := (v, f (w.notedOf v)) :: w.noted.filter fun p => p.1 != v }

/-- A floating-point number as a value; what is not a number is another one each time. -/
def newFloat (w : World ε) (x : Binary64) : Value × World ε :=
  match x with
  | .nan =>
    (.nan w.nans.next, { w with nans := w.nans.add () })
  | x => (.float x, w)

/-- The elements of a list. -/
def items (w : World ε) (r : Ref .list) : List Value := (w.lists.get r).toList

/-- The elements of a tuple. -/
def row (w : World ε) (r : Ref .tuple) : List Value := (w.tuples.get r).toList

/-- Adds a list. -/
def storeList (w : World ε) (items : List Value) : Ref .list × World ε :=
  (w.lists.next, { w with lists := w.lists.add items.toArray })

/-- Adds a tuple. -/
def storeTuple (w : World ε) (items : List Value) : Ref .tuple × World ε :=
  (w.tuples.next, { w with tuples := w.tuples.add items.toArray })

/-- Adds a list, as a value. -/
def newList (w : World ε) (items : List Value) : Value × World ε :=
  let (r, w) := w.storeList items
  (.list r, w)

/-- Adds a tuple, as a value. -/
def newTuple (w : World ε) (items : List Value) : Value × World ε :=
  let (r, w) := w.storeTuple items
  (.tuple r, w)

/-- Adds a node. -/
def newNode (w : World ε) (n : Node) : Ref .node × World ε :=
  (w.nodes.next, { w with nodes := w.nodes.add n })

/-- Adds a dictionary. -/
def newDictionary (w : World ε) (d : Dictionary) : Value × World ε :=
  (.dictionary w.dictionaries.next, { w with dictionaries := w.dictionaries.add d })

/-- Adds a lock. -/
def newLock (w : World ε) : Value × World ε :=
  (.lock w.locks.next, { w with locks := w.locks.add () })

/-- Adds a condition on which no thread waits. -/
def newCondition (w : World ε) : Value × World ε :=
  let r := w.conditions.next
  (.condition r r, { w with conditions := w.conditions.add default })

/-- Adds a method of an object, bound to it. -/
def newMethod (w : World ε) (self : Value) (m : Message) : Value × World ε :=
  (.method w.methods.next, { w with methods := w.methods.add ⟨self, m⟩ })

/-- Adds an exception object. -/
def newException (w : World ε) (cls : ExceptionClass) (args : List Value)
    (attributes : Attributes) : Ref .exception × World ε :=
  let (row, w) := w.storeTuple args
  let x : ExceptionObject := ⟨cls, row, cls.slots args (.tuple row), attributes⟩
  (w.exceptions.next, { w with exceptions := w.exceptions.add x })

/-- More than the number of objects, and so a bound for how deep objects can lie inside one another
without lying inside themselves. -/
def extent (w : World ε) : Nat :=
  w.nodes.cells.size + w.lists.cells.size + w.tuples.cells.size + w.dictionaries.cells.size +
    w.exceptions.cells.size + w.configs.cells.size + w.policies.cells.size +
    w.parked.cells.size + w.tokens.cells.size + w.sessions.cells.size + w.guards.cells.size +
    w.broadcasts.cells.size + w.walkers.cells.size + w.observers.cells.size +
    w.visitors.cells.size + w.methods.cells.size + 2

/-- The arguments of an exception. -/
def argsOf (w : World ε) (r : Ref .exception) : List Value := w.row (w.exceptions.get r).args

end World

end GuardedWalk
