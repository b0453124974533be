import GuardedWalk.World.Display

/-!
# The parameters of methods

A method must be given its required arguments and may be given some more. A call with too few or
too many of them fails before anything else happens.

## Main definitions

* `GuardedWalk.Parameters` — the parameters of a method.
* `GuardedWalk.Parameters.problem?` — what is wrong with a number of arguments.
* `GuardedWalk.World.parametersOf` — the parameters of the method that answers a message.

## Main results

* `GuardedWalk.Parameters.problem?_exactly` — as many arguments as there are parameters are right.
-/

set_option autoImplicit false

namespace GuardedWalk

/-- The parameters of a method, the object itself left out. -/
structure Parameters where
  /-- The names of those that must be given. -/
  required : List String
  /-- How many more may be given. -/
  optional : Nat
  /-- Whether any number of further arguments is taken. -/
  takesMore : Bool
deriving DecidableEq, Repr

namespace Parameters

/-- Parameters all of which must be given, and no others. -/
def exactly (names : List String) : Parameters := ⟨names, 0, false⟩

/-- Parameters that must be given, and any number of further arguments. -/
def atLeast (names : List String) : Parameters := ⟨names, 0, true⟩

/-- Parameters that may be given. -/
def upTo (n : Nat) : Parameters := ⟨[], n, false⟩

/-- How many arguments are taken, as it is told; `extra` is how many come with the call itself. -/
def takes (p : Parameters) (extra : Nat) : String :=
  let least := p.required.length + extra
  if p.optional = 0 then toString least
  else "from " ++ toString least ++ " to " ++ toString (least + p.optional)

/-- What is wrong with a number of arguments for a method of a name. -/
def problem? (p : Parameters) (method : String) (extra given : Nat) : Option Failure :=
  if given < p.required.length then
    some (.missingArguments method (p.required.drop given))
  else if p.required.length + p.optional < given && !p.takesMore then
    some (.spareArguments method (p.takes extra) (given + extra))
  else none

/-- As many arguments as there are parameters are right. -/
theorem problem?_exactly (names : List String) (method : String) (extra : Nat) :
    (exactly names).problem? method extra names.length = none := by
  simp [problem?, exactly]

end Parameters

namespace World

variable {ε : Type}

/-- The parameters of the method with which an object answers a message. -/
def parametersOf (w : World ε) (self : Value) (m : Message) : Parameters :=
  match m, self with
  | .accept, .node r =>
    match (w.nodes.get r).cls with
    | .document _ => .exactly ["walker"]
    | .foreign _ => .exactly ["visitor"]
  | .fromValues, .node r =>
    if (w.nodes.get r).cls = .document .tableRow then ⟨["values"], 1, false⟩ else .exactly ["rows"]
  | .entry e, .walker _ => .exactly e.params
  | .entry _, _ => .atLeast []
  | .before, _ => .atLeast ["event"]
  | .after, .adapter _ => .exactly ["event"]
  | .onEvent, _ => .atLeast ["phase", "event"]
  | .handle, _ => .exactly ["node", "visitor"]
  | .visit, _ | .broadcast, _ => ⟨["event", "args"], 1, false⟩
  | .wake, _ => .exactly ["thread_ident", "cancelled"]
  | .resume, _ => .upTo 1
  | .cancel, .policy _ => .upTo 1
  | .install, _ | .uninstall, _ | .isGuarded, _ => .exactly ["node"]
  | .isCanonical, _ => .exactly ["visitor"]
  | .dispatch, _ => .exactly ["node", "accept", "visitor"]
  | .argsFor, _ => .exactly ["event"]
  | _, _ => .exactly []

/-- What is wrong with a number of arguments for the method with which an object answers a
message; the methods of lists and dictionaries have rules of their own. -/
def argumentProblem? (w : World ε) (self : Value) (m : Message) (given : Nat) : Option Failure :=
  let problem (fits : Bool) (f : Failure) : Option Failure := if fits then none else some f
  let method := w.methodName self m
  match self, m with
  | .list _, .append => problem (given = 1) (.takesCount method "exactly one argument" given)
  | .list _, .insert => problem (given = 2) (.expectsCount m.name "2 arguments" given)
  | .list _, .pop => problem (given ≤ 1) (.expectsCount m.name "at most 1 argument" given)
  | .dictionary _, .pop =>
    if given = 0 then some (.expectsCount m.name "at least 1 argument" given)
    else problem (given ≤ 2) (.expectsCount m.name "at most 2 arguments" given)
  | .list _, .clear | .dictionary _, .clear =>
    problem (given = 0) (.takesCount method "no arguments" given)
  | _, _ => (w.parametersOf self m).problem? method (if m.needsNoObject then 0 else 1) given

end World

end GuardedWalk
