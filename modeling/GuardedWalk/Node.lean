import GuardedWalk.Failure

/-!
# Nodes of feature documents

A document is a graph of nodes. A node of one of the document classes knows which of its fields it
hands on to a visitor and under which events; nodes of foreign classes run code of their own.

## Main definitions

* `GuardedWalk.DocumentClass` — the classes of document nodes.
* `GuardedWalk.Part` — one thing that a node hands on to its visitor.
* `GuardedWalk.DocumentClass.parts` — what nodes of a class hand on, in the order of the grammar.
* `GuardedWalk.ForeignClass` — a class of nodes from elsewhere.
* `GuardedWalk.Node` — a node: its class and its attributes.
-/

set_option autoImplicit false

namespace GuardedWalk

/-- The classes of document nodes. -/
inductive DocumentClass where
  | features | feature | comment | tags | steps | step | background | scenario | scenarioOutline
  | examplesArray | examples | tableCell | tableRow | table | outlineTable | pyString
deriving DecidableEq, Repr, Inhabited

/-- One thing that a node hands on to its visitor. -/
inductive Part where
  /-- The elements of the list in a field, one after the other. -/
  | each (field : String) (event : Event)
  /-- The value of a field, unless it is absent. -/
  | optional (field : String) (event : Event)
  /-- The values of some fields, together. -/
  | always (event : Event) (fields : List String)
deriving DecidableEq, Repr

namespace DocumentClass

/-- All classes of document nodes. -/
def all : List DocumentClass :=
  [features, feature, comment, tags, steps, step, background, scenario, scenarioOutline,
   examplesArray, examples, tableCell, tableRow, table, outlineTable, pyString]

/-- The name of a class. -/
def name : DocumentClass → String
  | features => "Features"
  | feature => "Feature"
  | comment => "Comment"
  | tags => "Tags"
  | steps => "Steps"
  | step => "Step"
  | background => "Background"
  | scenario => "Scenario"
  | scenarioOutline => "ScenarioOutline"
  | examplesArray => "ExamplesArray"
  | examples => "Examples"
  | tableCell => "TableCell"
  | tableRow => "TableRow"
  | table => "Table"
  | outlineTable => "OutlineTable"
  | pyString => "PyString"

/-- The class of a given name. -/
def ofName? (name : String) : Option DocumentClass := all.find? fun c => c.name == name

/-- The parts that scenarios of both kinds hand on. -/
def scenarioParts : List Part :=
  [.optional "comment" .comment, .optional "tags" .tags,
   .always .scenarioName ["keyword", "name", "file_colon_line", "source_indent"],
   .always .steps ["steps"]]

/-- What nodes of a class hand on to their visitor, in the order of the grammar. -/
def parts : DocumentClass → List Part
  | features => [.each "features" .feature]
  | feature =>
    [.optional "comment" .comment, .optional "tags" .tags, .always .featureName ["name"],
     .optional "background" .background, .each "feature_elements" .featureElement]
  | comment => [.each "lines" .commentLine]
  | tags => [.each "names" .tagName]
  | steps => [.each "steps" .step]
  | step =>
    [.always .stepResult
      ["keyword", "step_match", "multiline_arg", "status", "exception", "source_indent",
       "background"]]
  | background =>
    [.always .backgroundName ["keyword", "name", "file_colon_line", "source_indent"],
     .always .steps ["steps"]]
  | scenario => scenarioParts
  | scenarioOutline => scenarioParts ++ [.always .examplesArray ["examples_array"]]
  | examplesArray => [.each "examples" .examples]
  | examples =>
    [.always .examplesName ["keyword", "name"], .always .outlineTable ["outline_table"]]
  | tableCell => [.always .tableCellValue ["value", "status"]]
  | tableRow => [.each "cells" .tableCell]
  | table | outlineTable => [.each "rows" .tableRow]
  | pyString => [.always .pyString ["text"]]

end DocumentClass

/-- What a foreign class defines as `accept`. -/
inductive ClassAccept where
  /-- Nothing. -/
  | absent
  /-- A traversal. -/
  | code
  /-- A value that is no traversal. -/
  | value (v : Value)
deriving DecidableEq, Repr

/-- An obstacle to assigning attributes: foreign code that fails instead. -/
structure Obstacle where
  /-- The attribute concerned; all of them if none is named. -/
  field : Option String
deriving DecidableEq, Repr

/-- A class of nodes from elsewhere. -/
structure ForeignClass where
  /-- What tells the class apart from others of the same name. -/
  id : Nat
  /-- The name of the class. -/
  name : String
  /-- What the class defines as `accept`. -/
  accept : ClassAccept
  /-- Whether objects of the class have attributes of their own. -/
  hasAttributes : Bool
  /-- An obstacle to assigning attributes. -/
  obstacle : Option Obstacle
  /-- Whether the class declares itself a class of document nodes. -/
  isDocumentNode : Bool
deriving DecidableEq, Repr

/-- The class of a node. -/
inductive NodeClass where
  | document (c : DocumentClass)
  | foreign (c : ForeignClass)
deriving DecidableEq, Repr

namespace NodeClass

/-- The name of a class. -/
def name : NodeClass → String
  | document c => c.name
  | foreign c => c.name

/-- Whether nodes of the class have attributes of their own. -/
def hasAttributes : NodeClass → Bool
  | document _ => true
  | foreign c => c.hasAttributes

/-- Whether the class is one from elsewhere. -/
def isForeign : NodeClass → Bool
  | document _ => false
  | foreign _ => true

/-- Whether copies of nodes of the class leave a guard behind. -/
def isDocumentNode : NodeClass → Bool
  | document _ => true
  | foreign c => c.isDocumentNode

/-- The class whose code keeps an attribute from being assigned, if any does. -/
def obstructing? (c : NodeClass) (field : String) : Option Nat :=
  match c with
  | document _ => none
  | foreign c =>
    match c.obstacle with
    | none => none
    | some o => if o.field = none ∨ o.field = some field then some c.id else none

end NodeClass

/-- A node of a document. -/
structure Node where
  /-- The class of the node. -/
  cls : NodeClass
  /-- The node's own attributes. -/
  attributes : Attributes

instance : Inhabited Node := ⟨⟨.document .features, []⟩⟩

namespace Node

/-- The attribute under which the traversal of a node is found. -/
def acceptField : String := Message.accept.name

/-- The attribute that says which guard answers for a node. -/
def guardField : String := "_featurewalker_guard"

/-- The attributes of a copy: the guard and its wrapper stay behind. -/
def unguarded (n : Node) : Attributes :=
  if n.cls.isDocumentNode then
    match n.attributes.get? guardField with
    | none => n.attributes
    | some .none => n.attributes.erase guardField
    | some _ => (n.attributes.erase guardField).erase acceptField
  else n.attributes

end Node

end GuardedWalk
