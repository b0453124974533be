/-!
# The notifications of a walk

A walk notifies its observers of a fixed set of events. Each event has the entry method that
raises it, the arguments that it carries, and whether the walk descends into the first argument.

## Main definitions

* `GuardedWalk.Event` — the events, in the order of the document grammar.
* `GuardedWalk.Event.all` — the catalogue.
* `GuardedWalk.Event.methodName`, `params`, `isComposite` — what the catalogue says of an event.
* `GuardedWalk.Event.ofMethod?` — the event of an entry method.

## Main results

* `GuardedWalk.Event.mem_all` — the catalogue is complete.
* `GuardedWalk.Event.ofMethod?_eq_some_iff` — a name belongs to at most one event.
-/

set_option autoImplicit false

namespace GuardedWalk

/-- What observers are notified of. -/
inductive Event where
  | features | feature | comment | commentLine | tags | tagName | featureName | featureElement
  | background | backgroundName | examplesArray | examples | examplesName | outlineTable
  | scenarioName | steps | step | stepResult | stepName | multilineArg | exception | pyString
  | tableRow | tableCell | tableCellValue | announce
deriving DecidableEq, Repr, Inhabited

namespace Event

/-- All events, in the order of the document grammar. -/
def all : List Event :=
  [features, feature, comment, commentLine, tags, tagName, featureName, featureElement,
   background, backgroundName, examplesArray, examples, examplesName, outlineTable,
   scenarioName, steps, step, stepResult, stepName, multilineArg, exception, pyString,
   tableRow, tableCell, tableCellValue, announce]

/-- The name of an event in the catalogue. -/
def name : Event → String
  | features => "FEATURES"
  | feature => "FEATURE"
  | comment => "COMMENT"
  | commentLine => "COMMENT_LINE"
  | tags => "TAGS"
  | tagName => "TAG_NAME"
  | featureName => "FEATURE_NAME"
  | featureElement => "FEATURE_ELEMENT"
  | background => "BACKGROUND"
  | backgroundName => "BACKGROUND_NAME"
  | examplesArray => "EXAMPLES_ARRAY"
  | examples => "EXAMPLES"
  | examplesName => "EXAMPLES_NAME"
  | outlineTable => "OUTLINE_TABLE"
  | scenarioName => "SCENARIO_NAME"
  | steps => "STEPS"
  | step => "STEP"
  | stepResult => "STEP_RESULT"
  | stepName => "STEP_NAME"
  | multilineArg => "MULTILINE_ARG"
  | exception => "EXCEPTION"
  | pyString => "PY_STRING"
  | tableRow => "TABLE_ROW"
  | tableCell => "TABLE_CELL"
  | tableCellValue => "TABLE_CELL_VALUE"
  | announce => "ANNOUNCE"

/-- The name of the entry method that raises an event. -/
def methodName : Event → String
  | features => "visit_features"
  | feature => "visit_feature"
  | comment => "visit_comment"
  | commentLine => "visit_comment_line"
  | tags => "visit_tags"
  | tagName => "visit_tag_name"
  | featureName => "visit_feature_name"
  | featureElement => "visit_feature_element"
  | background => "visit_background"
  | backgroundName => "visit_background_name"
  | examplesArray => "visit_examples_array"
  | examples => "visit_examples"
  | examplesName => "visit_examples_name"
  | outlineTable => "visit_outline_table"
  | scenarioName => "visit_scenario_name"
  | steps => "visit_steps"
  | step => "visit_step"
  | stepResult => "visit_step_result"
  | stepName => "visit_step_name"
  | multilineArg => "visit_multiline_arg"
  | exception => "visit_exception"
  | pyString => "visit_py_string"
  | tableRow => "visit_table_row"
  | tableCell => "visit_table_cell"
  | tableCellValue => "visit_table_cell_value"
  | announce => "announce"

/-- The names of the arguments that an event carries, in order. -/
def params : Event → List String
  | features => ["features"]
  | feature => ["feature"]
  | comment => ["comment"]
  | commentLine => ["comment_line"]
  | tags => ["tags"]
  | tagName => ["tag_name"]
  | featureName => ["name"]
  | featureElement => ["feature_element"]
  | background => ["background"]
  | backgroundName => ["keyword", "name", "file_colon_line", "source_indent"]
  | examplesArray => ["examples_array"]
  | examples => ["examples"]
  | examplesName => ["keyword", "name"]
  | outlineTable => ["outline_table"]
  | scenarioName => ["keyword", "name", "file_colon_line", "source_indent"]
  | steps => ["steps"]
  | step => ["step"]
  | stepResult =>
    ["keyword", "step_match", "multiline_arg", "status", "exception", "source_indent",
     "background"]
  | stepName => ["keyword", "step_match", "status", "source_indent", "background"]
  | multilineArg => ["multiline_arg"]
  | exception => ["exception", "status"]
  | pyString => ["string"]
  | tableRow => ["table_row"]
  | tableCell => ["table_cell"]
  | tableCellValue => ["value", "status"]
  | announce => ["announcement"]

/-- Whether the walk goes on below the node that an event announces. -/
def isComposite : Event → Bool
  | commentLine | tagName | featureName | backgroundName | examplesName | scenarioName | stepName
  | exception | pyString | tableCellValue | announce => false
  | _ => true

/-- The event whose entry method has a given name. -/
def ofMethod? (method : String) : Option Event :=
  all.find? fun e => e.methodName == method

/-- The event of a given catalogue name. -/
def ofName? (name : String) : Option Event :=
  all.find? fun e => e.name == name

/-- The catalogue is complete. -/
theorem mem_all (e : Event) : e ∈ all := by
  cases e <;> decide

/-- No two events share an entry method. -/
theorem methodName_injective {e e' : Event} (h : e.methodName = e'.methodName) : e = e' := by
  revert h
  cases e <;> cases e' <;> decide

/-- A method name leads to an event exactly when it is that event's entry method. -/
theorem ofMethod?_eq_some_iff {method : String} {e : Event} :
    ofMethod? method = some e ↔ e.methodName = method := by
  constructor
  · intro h
    simpa using List.find?_some h
  · rintro rfl
    cases h : ofMethod? e.methodName with
    | none =>
      have := List.find?_eq_none.1 h e (mem_all e)
      simp at this
    | some e' =>
      have : e'.methodName = e.methodName := by simpa using List.find?_some h
      rw [methodName_injective this]

end Event

end GuardedWalk
