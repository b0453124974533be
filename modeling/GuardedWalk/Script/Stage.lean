import GuardedWalk.Recording
import GuardedWalk.Script.Answer
import GuardedWalk.Script.Sorting

/-!
# The state of a script and its answers

While a script runs, it is kept which names are bound, which code belongs to scripted objects,
which numbers nodes and sessions have been given in answers, and what each thread has done. A node
is answered with its class and a number, which counts the
nodes that were answered before it for the first time; sessions are numbered in the same way. Other
objects are answered with the first name they were bound to. A value may have no answer, when its
text fails or its keys have no order; numbers given until then stay given.

## Main definitions

* `GuardedWalk.Script.Stage` — the state of a script.
* `GuardedWalk.Script.answerValue`, `answerFailure` — the answers that stand for a value and for a
  failure.
-/

set_option autoImplicit false

namespace GuardedWalk.Script

/-- Values bound to names that only some actions see. -/
abbrev Locals := List (String × Value)

/-- A rule of an observer and how often it has matched. -/
structure RuleState where
  /-- The rule. -/
  rule : Rule
  /-- How many notifications it has matched. -/
  matched : Int

/-- What nodes of a foreign class run. -/
structure NodeCode where
  /-- The traversal that the class defines. -/
  accept : List Step
  /-- What a traversal returns. -/
  returns : Term
  /-- The traversal that a node of the class was given. -/
  ownAccept : List Step
  /-- What is raised when an attribute cannot be assigned. -/
  obstacle : Term

instance : Inhabited NodeCode := ⟨⟨[], .none, [], .none⟩⟩

/-- What a policy of the user runs. -/
structure PolicyCode where
  /-- The actions. -/
  steps : List Step
  /-- What it returns. -/
  returns : Term

instance : Inhabited PolicyCode := ⟨⟨[], .none⟩⟩

/-- The actions of the methods of a visitor. -/
abbrev MethodCode := List (String × List Step)

/-- What a thread has done. -/
structure ThreadRecord where
  /-- The thread. -/
  thread : Thread
  /-- The nested actions that have finished during the present step, the latest first. -/
  trace : List (String × Answer)
  /-- The answers of its steps, the latest first. -/
  entries : List Answer
  /-- Whether it has ended. -/
  ended : Bool
  /-- What ended it before it was through with its steps, if anything did. -/
  death : Option Failure

/-- A block that a script holds open. -/
structure OpenBlock where
  /-- The object that was asked to hold its token. -/
  asked : Value
  /-- What the block holds. -/
  manager : Value
  /-- The session. -/
  session : Value

/-- Whether a block holds the token of an object. -/
def OpenBlock.isHeldBy (b : OpenBlock) (v : Value) : Bool := b.asked = v

/-- The state of a script. -/
structure Stage where
  /-- The values bound to names, the latest binding first. -/
  names : List (String × Value)
  /-- The first names of objects. -/
  firstNames : List (Value × String)
  /-- The numbers of the nodes answered so far. -/
  nodeNumbers : Store .node (Option Nat)
  /-- How many nodes have been answered. -/
  nodeCount : Nat
  /-- The numbers of what has been answered as a session so far. -/
  sessionNumbers : List (Value × Nat)
  /-- The code of foreign classes of nodes. -/
  nodeCode : Array NodeCode
  /-- The rules of scripted observers. -/
  rules : Array (List RuleState)
  /-- The code of policies. -/
  policyCode : Array PolicyCode
  /-- The code of visitors. -/
  methodCode : Array MethodCode
  /-- The blocks that scripts hold open, the latest first. -/
  blocks : List OpenBlock
  /-- The threads, the latest first. -/
  threads : List ThreadRecord

/-- The state before a script. -/
def Stage.initial : Stage where
  names := []
  firstNames := []
  nodeNumbers := .empty
  nodeCount := 0
  sessionNumbers := []
  nodeCode := #[]
  rules := #[]
  policyCode := #[]
  methodCode := #[]
  blocks := []
  threads := [⟨.main, [], [], false, none⟩]

/-- A world with a script. -/
abbrev Scene : Type := World Stage

/-- What changes a scene and answers, or fails. -/
abbrev Answering (α : Type) : Type := Act Stage α

/-- Changes the state of the script. -/
def onStage (f : Stage → Stage) (s : Scene) : Scene := { s with foreign := f s.foreign }

/-- Changes the record of a thread. -/
def Stage.modifyThread (t : Thread) (f : ThreadRecord → ThreadRecord) (s : Stage) : Stage :=
  { s with threads := s.threads.map fun r => if r.thread = t then f r else r }

/-- The record of a thread. -/
def Stage.thread? (s : Stage) (t : Thread) : Option ThreadRecord :=
  s.threads.find? fun r => r.thread == t

/-- The latest thread of a name among those that a script has started. -/
def Stage.threadNamed? (s : Stage) (name : String) : Option Thread :=
  (s.threads.find? fun r => r.thread.name == name && r.thread != .main).map (·.thread)

/-- Whether a value is known by the name it was first bound to. -/
def hasName : Value → Bool
  | .none | .bool _ | .int _ | .float _ | .nan _ | .text _ | .mode _ | .event _ | .list _ | .tuple _
  | .dictionary _ | .exception _ | .node _ => false
  | _ => true

/-- Binds a name to a value. -/
def Stage.bindName (s : Stage) (name : String) (v : Value) : Stage :=
  { s with
    names := (name, v) :: s.names
    firstNames :=
      if hasName v && (s.firstNames.lookup v).isNone then (v, name) :: s.firstNames
      else s.firstNames }

/-- The number of a node in answers; a node not answered before gets the next one. -/
def numberNode (r : Ref .node) : Answering Nat := modifyGet fun s =>
  match s.foreign.nodeNumbers.get r with
  | some n => (n, s)
  | none =>
    let n := s.foreign.nodeCount
    (n, onStage
      (fun x => { x with nodeNumbers := x.nodeNumbers.set r (some n), nodeCount := n + 1 }) s)

/-- The number of a session in answers. -/
def numberSession (v : Value) : Answering Nat := modifyGet fun s =>
  match s.foreign.sessionNumbers.lookup v with
  | some n => (n, s)
  | none =>
    let n := s.foreign.sessionNumbers.length
    (n, onStage (fun x => { x with sessionNumbers := (v, n) :: x.sessionNumbers }) s)

/-- The answer that stands for a value, at most `fuel` containers deep. -/
def answerWithin : Nat → Value → Answering Answer
  | _, .none => return .none
  | _, .bool b => return .bool b
  | _, .int i => return .int i
  | _, .float x => return .record [("float", .text x.text)]
  | _, .nan _ => return .record [("float", .text Binary64.nan.text)]
  | _, .text s => return .text s
  | _, .mode m => return .record [("mode", .text m.name)]
  | _, .event e => return .record [("event", .text e.methodName)]
  | _, .exception r => do
    let s ← get
    let message ← Act.look (·.plain (.exception r))
    return .record [("exc", .text (s.exceptions.get r).cls.name), ("message", .text message)]
  | _, .node r => do
    let n ← numberNode r
    let s ← get
    return .record [("n", .text (s.typeName (.node r) ++ "#" ++ toString n))]
  | 0, .list _ | 0, .tuple _ | 0, .dictionary _ => throw .tooDeep
  | fuel + 1, .list r => do
    let s ← get
    return .list (← (s.items r).mapM (answerWithin fuel))
  | fuel + 1, .tuple r => do
    let s ← get
    return .list (← (s.row r).mapM (answerWithin fuel))
  | fuel + 1, .dictionary r => do
    let sorted ← Act.look (sortedPairs · r)
    let pairs ← sorted.mapM fun p => do
      let key ← answerWithin fuel p.1
      return Answer.list [key, ← answerWithin fuel p.2]
    return .record [("dict", .list pairs)]
  | _, v => do
    let s ← get
    let name :=
      match s.foreign.firstNames.lookup v with
      | some name => Answer.text name
      | none => Answer.none
    return .record [("obj", .text (s.className v)), ("name", name)]

/-- The answer that stands for a value. -/
def answerValue (v : Value) : Answering Answer := do answerWithin (← get).extent v

/-- The answer that stands for an attribute of a value. -/
def answerAttr (v : Value) (name : String) : Answering Answer := do
  answerValue (← Act.read v name)

/-- An attribute of a value, as it is when the script has ended. -/
def holdAttr (v : Value) (name : String) : Answering Answer := do
  return .held (← Act.read v name)

/-- The answer that stands for a session or its absence. -/
def answerSession (v : Value) : Answering Answer := do
  match v with
  | .none => return .none
  | v =>
    let n ← numberSession v
    let name ← holdAttr v Session.threadNameField
    let table ← answerAttr v Session.tableField
    let closed ← holdAttr v Session.closedField
    return .record [("id", .int n), ("thread", name), ("table", table), ("closed", closed)]

/-- The answer that stands for several values. -/
def answerValues (vs : List Value) : Answering Answer := return .list (← vs.mapM answerValue)

/-- A list of texts as an answer. -/
def answerTexts (texts : List String) : Answer := .list (texts.map .text)

/-- What an answer to a failure of a class begins with. -/
def failureHead (cls : ExceptionClass) (message : String) : List (String × Answer) :=
  [("error", .text cls.name), ("message", .text message)] ++
    match cls.ancestors? with
    | some ancestors => [("is", answerTexts (ancestors.map ExceptionClass.name))]
    | none => []

/-- What there is to answer about an exception object of a class that was raised, besides its
class and text. -/
def answerDetails (cls : ExceptionClass) (attributes : Attributes) :
    Answering (List (String × Answer)) := do
  match cls with
  | .configurationError =>
    let problems ← Act.gather (attributes.value "problems")
    return [("problems", .list (problems.map .held))]
  | .foreignTraversalError =>
    let node ← answerValue (attributes.value "node")
    let visitor ← answerValue (attributes.value "visitor")
    return [("reason", .held (attributes.value "reason")), ("node", node), ("visitor", visitor),
      ("thread", .held (attributes.value "thread_name"))]
  | _ => return []

/-- The fields of the answer to a failure. -/
def answerFailure (f : Failure) : Answering (List (String × Answer)) := do
  match f with
  | .raised r =>
    let e ← Act.see (·.exceptions.get r)
    let message ← Act.look (·.plain (.exception r))
    return failureHead e.cls message ++ (← answerDetails e.cls e.attributes)
  | .configuration problems =>
    return failureHead f.cls f.message ++ [("problems", answerTexts problems)]
  | .foreignTraversal a reason =>
    let node ← answerValue a.node
    let visitor ← answerValue a.visitor
    return failureHead f.cls f.message ++
      [("reason", .text reason.word), ("node", node), ("visitor", visitor),
        ("thread", .text a.thread)]
  | f => return failureHead f.cls f.message

/-- The name of the event that a note is about; none for a note of an end without a beginning. -/
def answerNamed (e : Value) : Answering Answer := do
  if ← Act.isTrue e then holdAttr e Recording.nameField else return .none

/-- The answer that stands for a note of a recorder: its word, the name of its event and, if it has
them, the arguments. -/
def answerNote (note : Value) : Answering Answer := do
  let phase ← Act.look (·.item note (.int 0))
  let named ← answerNamed (← Act.look (·.item note (.int 1)))
  if 2 < (← Act.look (·.length note)) then
    let args ← Act.look (·.item note (.int 2))
    return .list [.held phase, named, ← answerValue args]
  else return .list [.held phase, named]

/-- The answer that stands for the notes of a recorder. -/
def answerNotes (notes : Value) : Answering Answer := do
  return .list (← (← Act.gather notes).mapM answerNote)

/-- The answer that stands for counts, sorted by what is counted. -/
def answerCounts (counts : Value) : Answering Answer := do
  match counts with
  | .dictionary r =>
    let sorted ← Act.look (sortedPairs · r)
    return .list (sorted.map fun p => .list [.held p.1, .held p.2])
  | v => throw (.missingAttribute ((← get).typeName v) "items")

end GuardedWalk.Script
