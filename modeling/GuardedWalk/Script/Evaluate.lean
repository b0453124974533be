import GuardedWalk.Script.Stage
import GuardedWalk.World.Construct

/-!
# The values that terms stand for

A term is evaluated where it stands: names are looked up, lists and nodes are made anew. A name
that was never bound is a failure.

## Main definitions

* `GuardedWalk.Script.lookupName` — the value bound to a name.
* `GuardedWalk.Script.resolve` — the value that a path leads to.
* `GuardedWalk.Script.Datum.make` — a datum as a value.
* `GuardedWalk.Script.evaluate` — the value that a term stands for.
-/

set_option autoImplicit false

namespace GuardedWalk.Script

/-- What makes values in a scene and may fail. -/
abbrev Evaluating (α : Type) : Type := Act Stage α

/-- The value bound to a name; locals have names of their own. -/
def lookupName (locals : Locals) (name : String) : Evaluating Value := do
  match locals.lookup name with
  | some v => return v
  | none =>
    match (← get).foreign.names.lookup name with
    | some v => return v
    | none => throw (.unbound name)

/-- The value reached from another by attributes and places. -/
def follow (v : Value) : List Selector → Evaluating Value
  | [] => return v
  | .field name :: rest => do follow (← Act.read v name) rest
  | .index place :: rest => do follow (← Act.look (·.item v (.int place))) rest

/-- The value that a path leads to. -/
def resolve (locals : Locals) (p : Path) : Evaluating Value := do
  follow (← lookupName locals p.head) p.selectors

/-- The values that paths lead to. -/
def resolveAll (locals : Locals) : List Path → Evaluating (List Value)
  | [] => return []
  | p :: rest => do
    let v ← resolve locals p
    return v :: (← resolveAll locals rest)

mutual

/-- A datum as a value. -/
def Datum.make : Datum → Evaluating Value
  | .none => return .none
  | .bool b => return .bool b
  | .int i => return .int i
  | .fraction x => Act.make (·.newFloat x)
  | .text s => return .text s
  | .list items => do Act.addList (← Datum.makeAll items)
  | .record names data => do
    let values ← Datum.makeAll data
    Act.addDictionary (.ofPairs Value.same ((names.map .text).zip values))

/-- Data as values. -/
def Datum.makeAll : List Datum → Evaluating (List Value)
  | [] => return []
  | d :: rest => do
    let v ← d.make
    return v :: (← Datum.makeAll rest)

end

/-- The event whose entry method has a name; nothing else is an event. -/
def eventNamed (method : Datum) : Evaluating Value := do
  match ← method.make with
  | .text s =>
    match Event.ofMethod? s with
    | some e => return .event e
    | none => throw (.unknownEvent (Text.quoted s))
  | v => throw (.unknownEvent (← Act.look (·.literal v)))

/-- Adds a node of a document class; plain values can stand for the rows and cells of a table. -/
def makeNode (cls : DocumentClass) (fields : List (String × Value)) : Evaluating Value :=
  match fields.lookup "values", cls with
  | some values, .tableRow => Act.tableRow values ((fields.lookup "status").getD .none)
  | some values, cls => Act.tableOf cls values
  | none, cls => Act.constructFrom cls fields

/-- What a class of foreign nodes is made from. -/
structure StubParts where
  /-- The name of the class. -/
  typeName : String
  /-- The traversal that the class defines. -/
  accept : Option (List Step)
  /-- What stands in the place of a traversal. -/
  acceptValue : Option Value
  /-- The traversal of the node alone. -/
  ownAccept : Option (List Step)
  /-- What traversals return. -/
  returns : Term
  /-- Whether the node has attributes. -/
  hasAttributes : Bool
  /-- What is raised when an attribute is assigned. -/
  obstacle : Option Term
  /-- The attribute concerned, if it is only one. -/
  obstacleField : Option String
  /-- Whether the class declares itself a class of document nodes. -/
  isDocumentNode : Bool

/-- A class can have a name. -/
def checkName (typeName : String) : Evaluating Unit :=
  match Failure.ofClassName? typeName with
  | some f => throw f
  | none => return

/-- Why a node of a foreign class cannot have a traversal of its own, if it cannot. -/
def ownAcceptProblem? (cls : ForeignClass) : Option Failure :=
  if cls.hasAttributes then none
  else
    match cls.accept with
    | .absent => some (.unassignable cls.name Node.acceptField)
    | _ => some (.readOnly cls.name Node.acceptField)

/-- Adds a node of a foreign class of its own. A class of document nodes has to define `accept`, and
its objects have attributes in any case. -/
def makeStub (x : StubParts) : Evaluating Value := do
  checkName x.typeName
  let s ← get
  if x.isDocumentNode && x.accept.isNone && x.acceptValue.isNone then
    throw (.undefinedMethod x.typeName Node.acceptField)
  let cls : ForeignClass :=
    { id := s.foreign.nodeCode.size
      name := x.typeName
      accept :=
        match x.acceptValue, x.accept with
        | some v, _ => .value v
        | none, some _ => .code
        | none, none => .absent
      hasAttributes := x.hasAttributes || x.isDocumentNode
      obstacle := x.obstacle.map fun _ => ⟨x.obstacleField⟩
      isDocumentNode := x.isDocumentNode }
  let code : NodeCode :=
    ⟨x.accept.getD [], x.returns, x.ownAccept.getD [], x.obstacle.getD .none⟩
  if x.ownAccept.isSome then
    if let some f := ownAcceptProblem? cls then throw f
  let own : Attributes :=
    if x.ownAccept.isSome then [(Node.acceptField, .ownAccept s.nodes.next)] else []
  let (r, s) := s.newNode ⟨.foreign cls, own⟩
  set (onStage (fun x => { x with nodeCode := x.nodeCode.push code }) s)
  return .node r

/-- A floating-point number from its text. -/
def readFloat (text : String) : Evaluating Value :=
  match Binary64.ofText? text with
  | some x => Act.make (·.newFloat x)
  | none => throw (.notNumber (Text.quoted text))

mutual

/-- The value that a term stands for. -/
def evaluate (locals : Locals) : Term → Evaluating Value
  | .none => return .none
  | .bool b => return .bool b
  | .int i => return .int i
  | .float text => readFloat text
  | .text s => return .text s
  | .mode m => return .mode m
  | .list items => do Act.addList (← evaluateAll locals items)
  | .dictionary keys values => do
    Act.addDictionary (← evaluatePairs locals .empty keys values)
  | .exception cls args => do
    return .exception (← Act.makeException cls (← evaluateAll locals args))
  | .path p => resolve locals p
  | .node cls fields values => do
    makeNode cls (fields.zip (← evaluateAll locals values))
  | .stub typeName accept returns acceptValue ownAccept hasAttributes obstacle obstacleField
      isDocumentNode => do
    let acceptValue ← acceptValue.mapM Datum.make
    makeStub
      ⟨typeName, accept, acceptValue, ownAccept, returns, hasAttributes, obstacle, obstacleField,
        isDocumentNode⟩

/-- The values that terms stand for. -/
def evaluateAll (locals : Locals) : List Term → Evaluating (List Value)
  | [] => return []
  | t :: rest => do
    let v ← evaluate locals t
    return v :: (← evaluateAll locals rest)

/-- A dictionary with the values that terms stand for put under keys one by one. -/
def evaluatePairs (locals : Locals) (d : Dictionary) :
    List Datum → List Term → Evaluating Dictionary
  | key :: keys, term :: terms => do
    let key ← key.make
    let v ← evaluate locals term
    let key ← Act.look (·.asKey key)
    evaluatePairs locals (← Act.see fun w => d.put w.same key v) keys terms
  | _, _ => return d

end

/-- The failure that keeps an attribute of a node of a foreign class from being assigned. -/
def obstruct : Obstruction Stage := fun id s =>
  let code := s.foreign.nodeCode.getD id default
  match (evaluate [] code.obstacle).run s with
  | (.ok (.exception r), s) => (.raised r, s)
  | (.ok _, s) => (.notRaisable, s)
  | (.error f, s) => (f, s)

end GuardedWalk.Script
