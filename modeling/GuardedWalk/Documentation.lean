import GuardedWalk.Object

/-!
# What methods say about themselves

Whatever can be called shows a few things under names of their own: where it is defined, what it is
called, alone and with the class that defines it, and what it is for.

## Main definitions

* `GuardedWalk.Described` — the attributes under which these things are shown.
* `GuardedWalk.Event.purpose?`, `PolicyBody.purpose?` and others — what methods say that they are
  for.
* `GuardedWalk.Value.describedFunction?` — what functions that belong to no object say.
* `GuardedWalk.Place` — where classes and functions are defined.

## Main results

* `GuardedWalk.Described.attributes_name` — something described shows its name.
-/

set_option autoImplicit false

namespace GuardedWalk

/-- Where classes and functions are defined. -/
inductive Place where
  | nodes | walker | guard | session | broadcast | config | fixtures
  /-- In what runs the library. -/
  | outside
  /-- Among what all classes have from the start. -/
  | abstractClasses
deriving DecidableEq, Repr

/-- The name of a place. -/
def Place.name : Place → String
  | nodes => "featurewalker.ast.nodes"
  | walker => "featurewalker.core.walker"
  | guard => "featurewalker.core.guard"
  | session => "featurewalker.core.session"
  | broadcast => "featurewalker.core.broadcast"
  | config => "featurewalker.config"
  | fixtures => "featurewalker.testing.fixtures"
  | outside => "__main__"
  | abstractClasses => "abc"

/-- What something that can be called says about itself. -/
structure Described where
  /-- Where it is defined, if anywhere. -/
  place : Option Place
  /-- Its name. -/
  name : String
  /-- Its name and that of what it is defined in. -/
  fullName : String
  /-- What it is for. -/
  purpose : Option String
deriving DecidableEq, Repr

namespace Described

/-- The attribute that says where something is defined. -/
def placeField : String := "__module__"

/-- The attribute that holds the name of something. -/
def nameField : String := "__name__"

/-- The attribute that holds the name of something and of what it is defined in. -/
def fullNameField : String := "__qualname__"

/-- The attribute that says what something is for. -/
def purposeField : String := "__doc__"

/-- A text, or none. -/
def textOr : Option String → Value
  | some s => .text s
  | none => .none

/-- What is shown under names of their own. -/
def attributes (d : Described) : Attributes :=
  [(placeField, textOr (d.place.map Place.name)), (nameField, .text d.name),
   (fullNameField, .text d.fullName), (purposeField, textOr d.purpose)]

/-- Something described shows its name. -/
theorem attributes_name (d : Described) : d.attributes.get? nameField = some (.text d.name) := rfl

end Described

/-- A text of several lines, as it stands under the head of a method. -/
def described (lines : List String) : String :=
  match lines with
  | [] => ""
  | first :: rest =>
    let indented (line : String) : String := if line.isEmpty then "" else "        " ++ line
    "\n".intercalate (first :: rest.map indented ++ ["        "])

/-- What the entry methods of walkers say that they are for. -/
def Event.purpose? : Event → Option String
  | .features =>
    some <| described
      ["Walk a whole document.", "", "Args:",
       "    features: Root node; its accept() visits each feature"]
  | .feature =>
    some <| described
      ["Walk one feature.", "", "Args:",
       "    feature: Node visiting comment, tags, name, background and elements"]
  | .comment =>
    some <| described
      ["Walk a comment block.", "", "Args:",
       "    comment: Node visiting one comment line per source line"]
  | .tags =>
    some <| described
      ["Walk a tag list.", "", "Args:", "    tags: Node visiting one tag name per tag"]
  | .featureElement =>
    some <| described
      ["Walk a Scenario or ScenarioOutline.", "", "Args:",
       "    feature_element: Scenario-like node"]
  | .background =>
    some <| described
      ["Walk the background shared by a feature's scenarios.", "", "Args:",
       "    background: Node visiting its name, then its steps"]
  | .examplesArray =>
    some <| described
      ["Walk the examples sections of an outline.", "", "Args:",
       "    examples_array: Node visiting each examples section"]
  | .examples =>
    some <| described
      ["Walk one examples section.", "", "Args:",
       "    examples: Node visiting its name, then its outline table"]
  | .outlineTable =>
    some <| described
      ["Walk an examples table, recording it as the current table.", "", "Args:",
       "    outline_table: Table node visiting its rows"]
  | .steps =>
    some <| described
      ["Walk the steps of a scenario or background.", "", "Args:",
       "    steps: Node visiting each step in order"]
  | .step =>
    some <| described
      ["Walk one step.", "", "Args:",
       "    step: Node that reports its outcome through visit_step_result()"]
  | .stepResult =>
    some <| described
      ["Visit the outcome of one executed step.", "",
       "The step name is always visited; the multiline argument and the",
       "exception only when present. Step exceptions arrive here as data.", "", "Args:",
       "    keyword: Step keyword, e.g. \"Given \"",
       "    step_match: Matched step definition or the step name",
       "    multiline_arg: Table or PyString node, or None",
       "    status: Execution status such as \"passed\"",
       "    exception: Exception raised by the step, or None",
       "    source_indent: Indentation for pretty printers",
       "    background: True for background steps"]
  | .multilineArg =>
    some <| described
      ["Walk a step's table or doc string argument.", "", "Args:",
       "    multiline_arg: Table or PyString node"]
  | .tableRow =>
    some <| described
      ["Walk one table row.", "", "Args:", "    table_row: Node visiting each of its cells"]
  | .tableCell =>
    some <| described
      ["Walk one table cell.", "", "Args:", "    table_cell: Node visiting its value and status"]
  | .announce =>
    some <| described
      ["Push free text to the observers.", "",
       "Can be called at any time, from any thread, including from step",
       "definitions while a walk is in progress."]
  | _ => none

/-- What the methods of walkers say that they are for. -/
def Walker.purpose? : Message → Option String
  | .entry e => e.purpose?
  | .cancel =>
    some <| described
      ["Cancel threads waiting to start a walk on this walker.", "",
       "The walk in flight is not interrupted."]
  | .broadcast =>
    some <| described
      ["Notify before, run the recursion block, notify after.", "",
       "Nothing is caught: an exception from an observer or from the",
       "block aborts the rest of the walk."]
  | _ => none

/-- What the methods of configurations say that they are for. -/
def Config.purpose? : Message → Option String
  | .classic =>
    some <| described
      ["Create config reproducing the classic runner.", "",
       "Foreign callers are parked with no timeout and no warning is",
       "logged, so legacy observers keep working unmodified.", "", "Returns:",
       "    WalkerConfig that parks foreign callers"]
  | .strict =>
    some <| described
      ["Create config that rejects foreign traversal loudly.", "", "Returns:",
       "    WalkerConfig that raises on foreign traversal"]
  | .lenient =>
    some <| described
      ["Create config that silently records foreign traversal attempts.", "", "Returns:",
       "    WalkerConfig that records and skips foreign traversal"]
  | .validate =>
    some <| described
      ["Validate configuration for consistency.", "", "Returns:",
       "    List of validation errors (empty if valid)"]
  | _ => none

/-- What the methods of policies say that they are for. -/
def PolicyBody.purpose? : PolicyBody → Message → Option String
  | .reject, .handle =>
    some "Raise ForeignTraversalError immediately."
  | .park, .handle =>
    some "Block the calling thread until resumed, cancelled or timed out."
  | .park, .resume =>
    some <| described
      ["", "Let parked threads continue without traversing.", "", "Args:",
       "    thread_ident: Only resume this thread (None = all parked threads)", "", "Returns:",
       "    Number of threads woken"]
  | .park, .cancel =>
    some <| described
      ["", "Wake parked threads with ForeignTraversalError(reason=\"cancelled\").", "",
       "Returns:", "    Number of threads woken"]
  | .record, .handle =>
    some "Record the attempt and return None."
  | .record, .statistics =>
    some <| described
      ["", "Get statistics about recorded attempts.", "", "Returns:",
       "    Dictionary with counts per node type and visitor type"]
  | _, _ => none

/-- What the methods of guards say that they are for. -/
def Guard.purpose? : Message → Option String
  | .isGuarded =>
    some "Check whether a guard has been installed on a node."
  | .install =>
    some <| described
      ["", "Install the guarded accept() on a node.", "", "Args:",
       "    node: First argument of a notification", "", "Returns:",
       "    True if the node is now guarded by this guard"]
  | .uninstall =>
    some <| described
      ["", "Remove the guarded accept() and the owner tag from a node.", "", "Returns:",
       "    True if the node was guarded"]
  | .isCanonical =>
    some <| described
      ["", "Check whether a visitor may traverse a guarded node.", "",
       "Any walker qualifies on the thread that owns its walk, or on any",
       "thread while it is idle."]
  | _ => none

/-- What the methods of tokens say that they are for. -/
def Token.purpose? : Message → Option String
  | .hold =>
    some <| described
      ["Hold the token for the duration of the block.", "", "Yields:",
       "    The active TraversalSession"]
  | .cancel =>
    some "Wake all threads waiting for the token; they raise TraversalCancelledError."
  | _ => none

/-- What the methods of what hands notifications on say that they are for. -/
def Broadcast.purpose? : Message → Option String
  | .before =>
    some "Pre-order notification; guards the first argument first."
  | .after =>
    some "Post-order notification. ``event`` is only used for logging."
  | _ => none

/-- What the methods of recorders say that they are for. -/
def Recording.purpose? : Message → Option String
  | .names =>
    some "Return the log as \"phase:method_name\" strings."
  | .argsFor =>
    some "Arguments of every before() call for the given event."
  | _ => none

/-- What the methods of nodes say that they are for. -/
def DocumentClass.purpose? : DocumentClass → Message → Option String
  | .table, .fromValues | .outlineTable, .fromValues =>
    some "Build a table from plain cell values, first row being the header."
  | _, _ => none

/-- What the methods of lists say that they are for. -/
def listPurpose? : Message → Option String
  | .append => some "Append object to the end of the list."
  | .insert => some "Insert object before index."
  | .pop =>
    some <| "Remove and return item at index (default last).\n\n" ++
      "Raises IndexError if list is empty or index is out of range."
  | .clear => some "Remove all items from list."
  | _ => none

/-- What the methods of dictionaries say that they are for. -/
def dictionaryPurpose? : Message → Option String
  | .pop =>
    some <| "D.pop(k[,d]) -> v, remove specified key and return the corresponding value.\n\n" ++
      "If the key is not found, return the default if given; otherwise,\nraise a KeyError."
  | .clear => some "D.clear() -> None.  Remove all items from D."
  | _ => none

/-- What functions that belong to no object say about themselves: methods that need none, what
walkers do between the notifications of an event, and traversals that nodes were given. -/
def Value.describedFunction? : Value → Option Described
  | .function m => some ⟨some .guard, m.name, Guard.className ++ "." ++ m.name, Guard.purpose? m⟩
  | .block _ e _ =>
    let name := if e = .outlineTable ∨ e = .stepResult then "block" else "<lambda>"
    let inside := "FeatureWalker." ++ e.methodName ++ ".<locals>."
    some ⟨some .walker, name, inside ++ name, .none⟩
  | .ownAccept _ => some ⟨some .outside, Message.accept.name, Message.accept.name, .none⟩
  | _ => .none

end GuardedWalk
