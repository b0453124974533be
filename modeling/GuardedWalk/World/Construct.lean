import GuardedWalk.World.Act

/-!
# Making nodes and exceptions

Nodes of the document classes are made from the fields that are given; each class says what stands
for a field that is left out. Lists are copied, and parts that a node cannot do without are made
empty. Exceptions are made from arguments; an error about a configuration takes a list of problems,
and one about foreign traversal takes what its text speaks of.

## Main definitions

* `GuardedWalk.Act.construct` — a node of a class from the given fields.
* `GuardedWalk.Act.tableRow`, `tableOf` — rows and tables from plain values.
* `GuardedWalk.Act.sampleDocument` — a small document of one feature.
* `GuardedWalk.Act.makeException` — an exception of a class from its arguments.
-/

set_option autoImplicit false

namespace GuardedWalk

namespace DocumentClass

/-- The fields without which a node of a class cannot be made. -/
def required : DocumentClass → List String
  | feature | scenario | scenarioOutline => ["name"]
  | step => ["keyword", "name"]
  | examples => ["outline_table"]
  | tableCell => ["value"]
  | pyString => ["text"]
  | _ => []

/-- The fields that a scenario can be made of. -/
def takenByScenario : List String :=
  ["name", "steps", "keyword", "comment", "tags", "file_colon_line", "source_indent"]

/-- The fields that a node of a class can be made of. -/
def taken : DocumentClass → List String
  | features => ["features"]
  | feature => ["name", "feature_elements", "background", "comment", "tags"]
  | comment => ["lines"]
  | tags => ["names"]
  | steps => ["steps"]
  | step =>
    ["keyword", "name", "multiline_arg", "status", "exception", "source_indent", "background",
     "step_match"]
  | background => ["name", "steps", "keyword", "file_colon_line", "source_indent"]
  | scenario => takenByScenario
  | scenarioOutline => "examples_array" :: takenByScenario
  | examplesArray => ["examples"]
  | examples => ["outline_table", "name", "keyword"]
  | tableCell => ["value", "status"]
  | tableRow => ["cells"]
  | table | outlineTable => ["rows"]
  | pyString => ["text"]

/-- Why a node of a class cannot be made of some fields, if it cannot. An outline takes any further
fields for those of a scenario. -/
def fieldProblem? (c : DocumentClass) (given : List String) : Option Failure :=
  let missing := c.required.filter (!given.contains ·)
  match c, given.find? (!c.taken.contains ·), missing with
  | scenarioOutline, some field, [] =>
    some (.unexpectedArgument (Failure.maker scenario.name) field)
  | c, some field, missing =>
    if c = scenarioOutline then some (.missingArguments (Failure.maker c.name) missing)
    else some (.unexpectedArgument (Failure.maker c.name) field)
  | _, none, [] => none
  | c, none, missing => some (.missingArguments (Failure.maker c.name) missing)

end DocumentClass

namespace Act

variable {ε : Type}

/-- Adds a node of a document class. -/
def addNode (cls : DocumentClass) (attributes : Attributes) : Act ε Value := do
  return .node (← make (·.newNode ⟨.document cls, attributes⟩))

/-- A new list of the elements of a value; an empty one if there is no value. -/
def listOf : Option Value → Act ε Value
  | none => addList []
  | some v => do addList (← gather v)

/-- A node of a class that has nothing but one list. -/
def listNode (cls : DocumentClass) (field : String) (v : Option Value) : Act ε Value := do
  addNode cls [(field, ← listOf v)]

/-- A value, or an empty node of a class if there is none. -/
def orEmpty (cls : DocumentClass) (field : String) : Option Value → Act ε Value
  | some .none | none => listNode cls field none
  | some v => return v

/-- The fields that scenarios and backgrounds share. -/
def namedFields (given : String → Option Value) (keyword : String) (name : Value) :
    Act ε Attributes := do
  let steps ← orEmpty .steps "steps" (given "steps")
  return [("keyword", (given "keyword").getD (.text keyword)), ("name", name), ("steps", steps),
    ("file_colon_line", (given "file_colon_line").getD .none),
    ("source_indent", (given "source_indent").getD (.int 0))]

/-- The fields of a scenario. -/
def scenarioFields (given : String → Option Value) (keyword : String) :
    Act ε Attributes := do
  let named ← namedFields given keyword ((given "name").getD .none)
  return named ++
    [("comment", (given "comment").getD .none), ("tags", (given "tags").getD .none)]

/-- A node of a class, from the fields that are given. -/
def construct (cls : DocumentClass) (given : String → Option Value) : Act ε Value := do
  let orNone (field : String) : Value := (given field).getD .none
  match cls with
  | .features => listNode cls "features" (given "features")
  | .feature =>
    let elements ← listOf (given "feature_elements")
    addNode cls
      [("name", orNone "name"), ("feature_elements", elements),
       ("background", orNone "background"), ("comment", orNone "comment"),
       ("tags", orNone "tags")]
  | .comment => listNode cls "lines" (given "lines")
  | .tags => listNode cls "names" (given "names")
  | .steps => listNode cls "steps" (given "steps")
  | .step =>
    let stepMatch := if orNone "step_match" = .none then orNone "name" else orNone "step_match"
    addNode cls
      [("keyword", orNone "keyword"), ("name", orNone "name"),
       ("multiline_arg", orNone "multiline_arg"),
       ("status", (given "status").getD (.text "skipped")),
       ("exception", orNone "exception"),
       ("source_indent", (given "source_indent").getD (.int 0)),
       ("background", (given "background").getD (.bool false)), ("step_match", stepMatch)]
  | .background =>
    addNode cls (← namedFields given "Background:" ((given "name").getD (.text "")))
  | .scenario => addNode cls (← scenarioFields given "Scenario:")
  | .scenarioOutline =>
    let fields ← scenarioFields given "Scenario Outline:"
    let examples ← orEmpty .examplesArray "examples" (given "examples_array")
    addNode cls (fields ++ [("examples_array", examples)])
  | .examplesArray => listNode cls "examples" (given "examples")
  | .examples =>
    addNode cls
      [("keyword", (given "keyword").getD (.text "Examples:")),
       ("name", (given "name").getD (.text "")), ("outline_table", orNone "outline_table")]
  | .tableCell => addNode cls [("value", orNone "value"), ("status", orNone "status")]
  | .tableRow => listNode cls "cells" (given "cells")
  | .table | .outlineTable => listNode cls "rows" (given "rows")
  | .pyString => addNode cls [("text", orNone "text")]

/-- A node of a class made of some fields. -/
def constructWith (cls : DocumentClass) (fields : List (String × Value)) : Act ε Value :=
  construct cls fun field => fields.lookup field

/-- A node of a class made of some fields, unless these are not right. -/
def constructFrom (cls : DocumentClass) (fields : List (String × Value)) : Act ε Value :=
  match cls.fieldProblem? (fields.map (·.1)) with
  | some f => throw f
  | none => constructWith cls fields

/-- Cells with some values and one status. -/
def cellsFrom (status : Value) : List Value → Act ε (List Value)
  | [] => return []
  | v :: rest => do
    let cell ← constructWith .tableCell [("value", v), ("status", status)]
    return cell :: (← cellsFrom status rest)

/-- A row of cells with the elements of a value. -/
def tableRow (values : Value) (status : Value) : Act ε Value := do
  let cells ← addList (← cellsFrom status (← gather values))
  constructWith .tableRow [("cells", cells)]

/-- Rows made of the elements of some values. -/
def rowsFrom : List Value → Act ε (List Value)
  | [] => return []
  | v :: rest => do
    let row ← tableRow v .none
    return row :: (← rowsFrom rest)

/-- A table of a class, one row for each element of a value. -/
def tableOf (cls : DocumentClass) (values : Value) : Act ε Value := do
  let rows ← addList (← rowsFrom (← gather values))
  constructWith cls [("rows", rows)]

/-- How a document is described in short: the names of its scenarios and their steps, each a keyword
and a name. -/
abbrev Outline := List (Value × List (Value × Value))

/-- Passed steps with some keywords and names. -/
def passedSteps : List (Value × Value) → Act ε (List Value)
  | [] => return []
  | (keyword, name) :: rest => do
    let step ← constructWith .step
      [("keyword", keyword), ("name", name), ("status", .text "passed")]
    return step :: (← passedSteps rest)

/-- Scenarios with some names and steps. -/
def plainScenarios : Outline → Act ε (List Value)
  | [] => return []
  | (name, steps) :: rest => do
    let list ← addList (← passedSteps steps)
    let steps ← constructWith .steps [("steps", list)]
    let scenario ← constructWith .scenario [("name", name), ("steps", steps)]
    return scenario :: (← plainScenarios rest)

/-- The scenarios of a document that is not described further. -/
def sampleScenarios : Outline :=
  [(.text "Scenario",
    [(.text "Given ", .text "a thing"), (.text "Then ", .text "it works")])]

/-- A small document of one feature. -/
def sampleDocument (featureName : Value) (scenarios : Option Outline) : Act ε Value := do
  let elements ← addList (← plainScenarios (scenarios.getD sampleScenarios))
  let feature ← constructWith .feature
    [("name", featureName), ("feature_elements", elements)]
  let features ← addList [feature]
  constructWith .features [("features", features)]

/-- The texts among some values, joined; all of them must be texts. -/
def textsFrom (w : World ε) : Nat → List Value → Except Failure (List String)
  | _, [] => .ok []
  | place, .text s :: rest => do return s :: (← textsFrom w (place + 1) rest)
  | place, v :: _ => .error (.notJoinable place (w.typeName v))

/-- The names of the arguments that an error about foreign traversal needs. -/
def foreignArguments : List String := ["node", "visitor", "thread_name"]

/-- The text of an error about foreign traversal, from what it was made of. -/
def foreignMessage (w : World ε) (node visitor thread reason : Value) : Except Failure Value := do
  let quotedThread ← w.literal thread
  let reason ← w.plain reason
  return .text (Failure.foreignText (w.className node) (w.className visitor) quotedThread reason)

/-- The arguments of the text of an exception and its attributes, from what it is made of. -/
def exceptionParts (cls : ExceptionClass) (args : List Value) :
    Act ε (List Value × Attributes) := do
  match cls, args with
  | .configurationError, [] => throw (.missingArguments (Failure.maker cls.name) ["problems"])
  | .configurationError, [problems] =>
    let items ← gather problems
    let list ← addList items
    let texts ← look fun w => textsFrom w 0 items
    return ([.text (Failure.configurationText texts)], [("problems", list)])
  | .configurationError, args =>
    throw (.spareArguments (Failure.maker cls.name) "2" (args.length + 1))
  | .foreignTraversalError, node :: visitor :: thread :: rest =>
    let reason := rest.headD (.text Refusal.rejected.word)
    if 2 < rest.length then
      throw (.spareArguments (Failure.maker cls.name) "from 4 to 6" (args.length + 1))
    let message ←
      match rest.getD 1 .none with
      | .none => look fun w => foreignMessage w node visitor thread reason
      | message => pure message
    return ([message],
      [("node", node), ("visitor", visitor), ("thread_name", thread), ("reason", reason)])
  | .foreignTraversalError, args =>
    throw (.missingArguments (Failure.maker cls.name) (foreignArguments.drop args.length))
  | _, args => return (args, [])

/-- Adds an exception of a class, made from some arguments. -/
def makeException (cls : ExceptionClass) (args : List Value) : Act ε (Ref .exception) := do
  let (args, attributes) ← exceptionParts cls args
  make (·.newException cls args attributes)

end Act

end GuardedWalk
