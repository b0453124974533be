import GuardedWalk.Script.Line

/-!
# Answers to questions

Actions that look at objects without changing them: the state of walkers and tokens, texts and
elements of values, what observers, visitors and policies have been told, and the log.

## Main definitions

* `GuardedWalk.Script.ask` — answers a question about a value.
* `GuardedWalk.Script.answerState`, `answerToken` — the state of a walker and of a token.
* `GuardedWalk.Script.answerRecorded`, `answerStatistics`, `answerLogs` — what has been recorded.
-/

set_option autoImplicit false

namespace GuardedWalk.Script

open Routine

/-- The state of a walker. -/
def answerState (v : Value) : Line Answer := do
  let walking ← sayHeld v "is_walking"
  let table ← sayAttr v "current_table"
  let session ← saySession (← Walk.readAttr v "session")
  let ownership ← Walk.readAttr (← Walk.readAttr v "guard") Guard.ownershipField
  let depth ← sayHeld ownership "depth"
  let waiting ← sayHeld ownership "waiting"
  let mine ← request ownership Message.isOwned.name (pure [])
  let shown ← examine (·.literal v)
  return .record
    [("walking", walking), ("table", table), ("session", session), ("depth", depth),
     ("waiting", waiting), ("mine", .held mine), ("repr", .text shown)]

/-- The state of a token. -/
def answerToken (v : Value) : Line Answer := do
  let session ← saySession (← Walk.readAttr v "session")
  let depth ← sayHeld v "depth"
  let waiting ← sayHeld v "waiting"
  return .list [session, depth, waiting, .held (← request v Message.isOwned.name (pure []))]

/-- The walker of the guard that has tagged a value; none if the value has no tag or the tag is
none. The value must be one that can have attributes. -/
def ownerOf (v : Value) : Line Value := do
  if !(← read (·.hasDictionary v)) then throw .noDictionary
  match ← read (·.tag? v) with
  | none | some .none => return .none
  | some tag => Walk.readAttr tag Guard.walkerField

/-- Answers a question about a value. -/
def ask (question : Question) (v : Value) : Line Answer := do
  match question with
  | .value => sayValue v
  | .literal => return .text (← examine (·.literal v))
  | .plain => return .text (← examine (·.plain v))
  | .length => return .int (← examine (·.length v))
  | .cells => sayReply v .raw (pure [])
  | .elements => say (answerValues (← examine (·.elementsOf v)))
  | .kind => return .text (← read (·.observerKind v)).word
  | .canonical => sayValue (← Walk.apply (.function .isCanonical) [v])
  | .owner => sayValue (← ownerOf v)

/-- The method names of some events. -/
def answerMethods (events : Value) : Answering Answer := do
  let names ← Act.collect (Act.read · Recording.nameField) (← Act.gather events)
  return .list (names.map .held)

/-- Answers a question about a record. -/
def answerRecorded (v : Value) : RecordQuestion → Line Answer
  | .log => do say (answerNotes (← Walk.readAttr v Observer.notesField))
  | .names => do
    let depth ← sayHeld v "depth"
    return .list [depth, ← sayReply v .names (pure [])]
  | .beforeEvents => do say (answerMethods (← Walk.send v .beforeEvents []))
  | .argsFor method => do sayReply v .argsFor do return [← event method]

/-- An entry of a dictionary. -/
def entryOf (v : Value) (key : String) : Line Value := examine (·.item v (.text key))

/-- What is answered of a report. -/
def answerReport (report : Value) : Answering Answer := do
  let read (key : String) : Answering Value := Act.look (·.item report (.text key))
  let node ← answerValue (← read "node")
  let nodeType ← read "node_type"
  let visitorType ← read "visitor_type"
  return .list [node, .held nodeType, .held visitorType, .held (← read "thread")]

/-- A summary of the reports of a policy. -/
def answerStatistics (v : Value) : Line Answer := do
  let summary ← Walk.send v .statistics []
  let total ← entryOf summary "total_attempts"
  let byNode ← say (answerCounts (← entryOf summary "by_node_type"))
  let byVisitor ← say (answerCounts (← entryOf summary "by_visitor_type"))
  let reports ← examine fun s => do s.elementsOf (← s.item summary (.text "reports"))
  let reports ← say do return .list (← reports.mapM answerReport)
  return .record
    [("total", .held total), ("by_node", byNode), ("by_visitor", byVisitor), ("reports", reports)]

/-- The log records since the last time. -/
def answerLogs : Line Answer :=
  update fun s =>
    (.list (s.journal.reverse.map fun r =>
        answerTexts [r.severity.name, r.channel.name, r.message]),
     { s with journal := [] })

end GuardedWalk.Script
