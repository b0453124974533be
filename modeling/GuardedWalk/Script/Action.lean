import GuardedWalk.World

/-!
# Scripts

A script is a list of actions on named objects. Actions make nodes, observers and walkers, start
walks, look at what has become of the objects, and start threads that run scripts of their own.
Scripted observers, visitors, policies and nodes run scripts when they are called.

## Main definitions

* `GuardedWalk.Script.Path` — a reference to an object by name and fields.
* `GuardedWalk.Script.Datum` — plain data that stand for themselves.
* `GuardedWalk.Script.Term` — how a value is written in a script.
* `GuardedWalk.Script.Action`, `Step`, `Rule` — what a script consists of.
-/

set_option autoImplicit false

namespace GuardedWalk.Script

/-- One part of a path. -/
inductive Selector where
  /-- An attribute. -/
  | field (name : String)
  /-- An element of a list; negative places count from the end. -/
  | index (place : Int)
deriving DecidableEq, Repr

/-- A reference to an object: a name, then attributes and places. -/
structure Path where
  /-- The name that the path starts from. -/
  head : String
  /-- The way from there. -/
  selectors : List Selector
deriving DecidableEq, Repr

/-- The whole number written with some decimal digits, if there are any and nothing else. -/
def wholeNumber? (digits : List Char) : Option Nat :=
  if digits.isEmpty || !digits.all Char.isDigit then none
  else some (digits.foldl (fun n c => 10 * n + (c.toNat - '0'.toNat)) 0)

/-- What a part of a path stands for: a place if it is a whole number, else an attribute. -/
def Selector.ofPart (part : String) : Selector :=
  let place? :=
    match part.toList with
    | '-' :: digits => (wholeNumber? digits).map fun n => -(n : Int)
    | digits => (wholeNumber? digits).map Int.ofNat
  match place? with
  | some place => .index place
  | none => .field part

/-- Reads a path, whose parts are separated by points. -/
def Path.ofText (text : String) : Path :=
  match text.splitOn "." with
  | [] => ⟨text, []⟩
  | head :: parts => ⟨head, parts.map Selector.ofPart⟩

/-- Plain data as they are written in a script: nothing in them is looked up or worked out. -/
inductive Datum where
  | none
  | bool (b : Bool)
  | int (i : Int)
  /-- A number that is not whole. -/
  | fraction (x : Binary64)
  | text (s : String)
  | list (items : List Datum)
  /-- Fields, and the data in them. -/
  | record (names : List String) (data : List Datum)

instance : Inhabited Datum := ⟨.none⟩

/-- The settings that a configuration starts from. -/
inductive ConfigPreset where
  | plain | classic | strict | lenient
deriving DecidableEq, Repr

/-- How a copy is made. -/
inductive CopyKind where
  /-- A copy of one object. -/
  | shallow
  /-- A copy of everything that can be reached. -/
  | deep
  /-- Everything that can be reached, written out and read back. -/
  | written
deriving DecidableEq, Repr

/-- Questions about a value. -/
inductive Question where
  /-- The value itself. -/
  | value
  /-- Its literal text. -/
  | literal
  /-- Its plain text. -/
  | plain
  /-- Its number of elements. -/
  | length
  /-- The texts of a table. -/
  | cells
  /-- Its elements. -/
  | elements
  /-- Which notifications it has declared to take. -/
  | kind
  /-- Whether it may traverse guarded nodes. -/
  | canonical
  /-- The walker of the guard put on it. -/
  | owner
deriving DecidableEq, Repr

/-- Questions about what an observer has recorded. -/
inductive RecordQuestion where
  /-- All notes. -/
  | log
  /-- How many events are open, and the notes as words. -/
  | names
  /-- The events that have begun. -/
  | beforeEvents
  /-- The arguments with which an event has begun. -/
  | argsFor (event : Datum)

/-- Which threads a wake is meant for. -/
inductive Sleeper where
  /-- All of them. -/
  | all
  /-- The thread of a name. -/
  | named (thread : Datum)
  /-- A thread that is not suspended. -/
  | nobody

/-- The phases in which a rule of an observer applies. -/
inductive Phase where
  | before | after
deriving DecidableEq, Repr

mutual

/-- How a value is written in a script. -/
inductive Term where
  | none
  | bool (b : Bool)
  | int (i : Int)
  | float (text : String)
  | text (s : String)
  | mode (m : TraversalMode)
  | list (items : List Term)
  /-- Keys, and the values under them. -/
  | dictionary (keys : List Datum) (values : List Term)
  | exception (cls : ExceptionClass) (args : List Term)
  | path (p : Path)
  | node (cls : DocumentClass) (fields : List String) (values : List Term)
  | stub (typeName : String) (accept : Option (List Step)) (returns : Term)
      (acceptValue : Option Datum) (ownAccept : Option (List Step)) (hasAttributes : Bool)
      (obstacle : Option Term) (obstacleField : Option String) (isDocumentNode : Bool)

/-- What a script does. -/
inductive Action where
  | bind (name : Option String) (value : Term)
  | config (name : Option String) (preset : ConfigPreset) (settings : List String)
      (values : List Term)
  | problems (config : Path)
  | observer (name : Option String) (cls : ObserverClass) (rules : List Rule)
  | rejectPolicy (name : Option String)
  | parkPolicy (name : Option String) (timeout : Term)
  | recordPolicy (name : Option String) (verbose : Datum)
  | customPolicy (name : Option String) (actions : List Step) (returns : Term)
  | createPolicy (name : Option String) (config : Path)
  | walker (name : Option String) (observers : List Path) (config : Option Path) (stepMother : Term)
  | walkDocument (name : Option String) (document : Term) (observers : List Path)
      (config : Option Path) (stepMother : Term)
  | collectEvents (document : Term) (config : Option Path)
  | buildDocument (name : Option String) (featureName : Datum)
      (scenarios : Option (List (Datum × List (Datum × Datum))))
  | visitor (name : Option String) (typeName : String) (methods : List Event)
      (actions : List String) (code : List (List Step)) (guardOf ownGuard : Option Path)
  | guard (name : Option String) (walker : Term) (ownership policy : Path) (quiet : Datum)
  | adapter (name : Option String) (observers : List Path) (guard : Path)
  | adapterBefore (adapter : Path) (event : Datum) (args : List Term)
  | adapterAfter (adapter : Path) (event : Datum)
  | copy (name : Option String) (value : Term) (kind : CopyKind)
  | visit (visitor : Path) (method : String) (args : List Term)
  | accept (node visitor : Term)
  | raise (value : Term)
  | tellBefore (observer : Path) (event : Datum) (args : List Term)
  | tellAfter (observer : Path)
  | tellEvent (observer : Path) (phase event : Datum) (args : List Term)
  | install (guard : Path) (node : Term)
  | uninstall (node : Term)
  | isGuarded (nodes : List Term)
  | state (walker : Path)
  | ask (question : Question) (value : Term)
  | assign (target : Path) (field : String) (value : Term)
  | append (list : Path) (value : Term)
  | insert (list : Path) (place : Datum) (value : Term)
  | pop (list : Path) (place : Datum)
  | put (dictionary : Path) (key : Datum) (value : Term)
  | recorded (observer : Path) (question : RecordQuestion)
  | clear (observer : Path)
  | calls (of : Path)
  | statistics (policy : Path)
  | logs
  | spawn (thread : String) (steps : List Step) (untilDone : Bool)
  | join (thread : Datum)
  | wake (policy : Path) (who : Sleeper) (cancelled : Bool)
  | parked (policy : Path)
  | cancel (walker : Path)
  | ownership (name : Option String) (timeout : Term)
  | hold (ownership : Path)
  | release (ownership : Path) (error : Term)
  | ownershipState (ownership : Path)
  | session (thread : Datum) (table : Term) (closes : Nat)

/-- An action with the word it is reported under; a failure of a caught action is its result. -/
inductive Step where
  | mk (word : String) (caught : Bool) (action : Action)

/-- What a scripted observer does at some notifications: at those of a phase, of an event if one is
named, and only at the one of a given number if there is one. -/
inductive Rule where
  | mk (phase : Phase) (event : Option String) (nth : Option Int) (steps : List Step)

end

instance : Inhabited Term := ⟨.none⟩

instance : Inhabited Step := ⟨.mk "" false .logs⟩

/-- The word under which a step is reported. -/
def Step.word : Step → String
  | .mk word _ _ => word

end GuardedWalk.Script
