import GuardedWalk.World.Elements
import GuardedWalk.World.Methods

/-!
# What objects show under a name

Under a name an object shows what its class works out anew each time, else an attribute that it
carries itself, else what its class has for all its objects, such as a method. So an attribute can
stand in the way of a method, but not of what the class works out. Much of what classes work out is
read from attributes of other objects, which may be of any class.

## Main definitions

* `GuardedWalk.World.Member` — what can be shown under a name.
* `GuardedWalk.World.Getter` — how a class works something out.
* `GuardedWalk.World.member` — what a value shows under a name.
* `GuardedWalk.World.reveal`, `attrValue` — the same as a value.
* `GuardedWalk.World.setField` — assigns an attribute of a value.

## Main results

* `GuardedWalk.World.memberHere_of_own` — an attribute of its own hides what the class of a value
  has.
* `GuardedWalk.World.setNodeField_ok` — without obstacles an assignment sets one attribute.
-/

set_option autoImplicit false

namespace GuardedWalk

/-- What makes a failure when foreign code keeps an attribute from being assigned; a class is given
by what tells it apart. -/
abbrev Obstruction (ε : Type) : Type := Nat → World ε → Failure × World ε

namespace World

variable {ε : Type}

/-- What is shown under a name. -/
inductive Member where
  /-- A value. -/
  | value (v : Value)
  /-- A floating-point number. -/
  | number (x : Binary64)
  /-- A method, bound to the object. -/
  | bound (m : Message)
  /-- A method that needs no object. -/
  | function (m : Message)
  /-- A new tuple. -/
  | row (items : List Value)
  /-- A new list. -/
  | listing (items : List Value)
deriving DecidableEq, Repr

namespace Member

/-- Whether what is shown can be called. -/
def isCallable : Member → Bool
  | value v => v.isCallable
  | bound _ | function _ => true
  | number _ | row _ | listing _ => false

/-- What is shown, as a value; none if it is made anew each time. -/
def plain : Member → Value
  | value v => v
  | _ => .none

end Member

/-- How a class works out what its objects show under a name. -/
inductive Getter where
  /-- What is reached through attributes, one after the other. -/
  | along (path : List String)
  /-- Whether anything is reached through attributes. -/
  | present (path : List String)
  /-- The table of the session that is reached through attributes. -/
  | table (path : List String)
  /-- The number of elements of an attribute. -/
  | count (field : String)
  /-- The number of parked calls. -/
  | parkedCount
  /-- The names of the threads of parked calls. -/
  | parkedNames
  /-- The time since a session was opened. -/
  | elapsed
  /-- Something that does not depend on other objects. -/
  | fixed (m : Member)

/-- How walkers work something out under a name. -/
def walkerGetter? : String → Option Getter
  | "options" => some (.along [Walker.configField, "options"])
  | "step_mother" => some (.along [Walker.stepMotherField])
  | "observers" => some (.along [Walker.broadcastField, Broadcast.observersField])
  | "legacy_observers" => some (.along [Walker.broadcastField, Broadcast.notifiedField])
  | "guard" => some (.along [Walker.guardField])
  | "policy" => some (.along [Walker.policyField])
  | "session" => some (.along [Walker.ownershipField, "session"])
  | "is_walking" => some (.present [Walker.ownershipField, "session"])
  | "current_table" => some (.table [Walker.ownershipField, "session"])
  | _ => none

/-- How tokens work something out under a name. -/
def tokenGetter? : String → Option Getter
  | "session" => some (.along [Token.sessionField])
  | "depth" => some (.along [Token.depthField])
  | "waiting" => some (.along [Token.waitingField])
  | _ => none

/-- How events work something out under a name. -/
def eventGetter? (e : Event) : String → Option Getter
  | "name" => some (.along ["_name_"])
  | "value" => some (.along ["_value_"])
  | "method_name" => some (.along ["value"])
  | "params" => some (.fixed (.row (e.params.map .text)))
  | "is_composite" => some (.fixed (.value (.bool e.isComposite)))
  | _ => none

/-- How modes work something out under a name. -/
def modeGetter? : String → Option Getter
  | "name" => some (.along ["_name_"])
  | "value" => some (.along ["_value_"])
  | _ => none

/-- How policies that park callers work something out under a name. -/
def parkGetter? : String → Option Getter
  | "parked_count" => some .parkedCount
  | "parked_threads" => some .parkedNames
  | _ => none

/-- How the class of a value works something out under a name. -/
def getter? (w : World ε) (v : Value) (name : String) : Option Getter :=
  match v with
  | .walker _ => walkerGetter? name
  | .token _ => tokenGetter? name
  | .session _ => if name = "elapsed" then some .elapsed else none
  | .policy r => if (w.policies.get r).body = .park then parkGetter? name else none
  | .observer r =>
    if name = "depth" ∧ (w.observers.get r).cls.hasLog then some (.count Observer.openField)
    else none
  | .event e => eventGetter? e name
  | .mode _ => modeGetter? name
  | .exception r =>
    let e := w.exceptions.get r
    if name = "args" then some (.fixed (.value (.tuple e.args)))
    else (e.slots.get? name).map fun x => .fixed (.value x)
  | _ => none

/-- What a method shows under a name: its object, or what it says about itself. -/
def methodMember? (w : World ε) (r : Ref .method) (name : String) : Option Member :=
  let x := w.methods.get r
  if name = Method.selfField && !x.message.isOfClass then some (.value x.self)
  else ((w.callableAttributes (.method r)).get? name).map .value

/-- What the class of a value has under a name for all its objects. -/
def classMember? (w : World ε) (v : Value) (name : String) : Option Member :=
  let method? :=
    match Message.ofName? name with
    | some m =>
      if w.understands v m then some (if m.needsNoObject then .function m else .bound m) else none
    | none => none
  match v with
  | .mode _ => (TraversalMode.ofName? name).map fun m => .value (.mode m)
  | .event _ => (Event.ofName? name).map fun e => .value (.event e)
  | .node r =>
    match (w.nodes.get r).cls with
    | .foreign c =>
      match c.accept with
      | .value x => if name = Node.acceptField then some (.value x) else none
      | _ => method?
    | _ => method?
  | .method r => w.methodMember? r name
  | _ => method?

/-- The name of the class that is told to lack an attribute; a method shows the attributes of its
function. -/
def lackingName (w : World ε) (v : Value) : String :=
  match v with
  | .method r => if (w.methods.get r).typeName = "method" then "function" else w.typeName v
  | v => w.typeName v

/-- Why a value cannot be held as a lock, if it cannot. -/
def lockProblem? (w : World ε) : Value → Option Failure
  | .lock _ | .condition .. => none
  | v => some (.notManager (w.typeName v))

/-- Something that is done under the lock in an attribute of a value. -/
def locked {α : Type} (w : World ε) (lock : Value) (r : Except Failure α) : Except Failure α :=
  match w.lockProblem? lock with
  | some f => .error f
  | none => r

/-- Whether a number is so large that the time of the clock does not change it. -/
def outweighsClock : Binary64 → Bool
  | .finite _ mantissa exponent => mantissa ≠ 0 && 80 ≤ (mantissa.log2 : Int) + exponent
  | _ => false

/-- What is left of the time of the clock without a number; the time itself counts as zero. -/
def clockMinus (x : Binary64) : Binary64 :=
  match x with
  | .nan => .nan
  | .infinite negative => .infinite !negative
  | .finite negative mantissa exponent =>
    if outweighsClock x then .finite (!negative) mantissa exponent else .zero

/-- The time since a session was opened, given when that was. -/
def timeSince (w : World ε) (started : Value) : Except Failure Member :=
  match started.number? with
  | none => .error (.notTime "-" (w.typeName started))
  | some (.whole i) =>
    match Binary64.ofInt i with
    | .infinite _ => .error .numberTooLarge
    | x => .ok (.number (clockMinus x))
  | some (.float x) => .ok (.number (clockMinus x))

/-- An attribute that a value carries itself, none if it is not set. -/
def ownValue (w : World ε) (v : Value) (name : String) : Value :=
  ((w.own? v).getD []).value name

/-- What a value shows under a name, apart from what its class works out. -/
def memberHere (w : World ε) (v : Value) (name : String) : Except Failure Member :=
  match ((w.own? v).getD []).get? name with
  | some x => .ok (.value x)
  | none =>
    match w.classMember? v name with
    | some m => .ok m
    | none => .error (.missingAttribute (w.lackingName v) name)

/-- What is reached from a value through attributes, one after the other. -/
def reached (get : Value → String → Except Failure Member) : Value → List String →
    Except Failure Member
  | v, [] => .ok (.value v)
  | v, [name] => get v name
  | v, name :: rest => do reached get (← get v name).plain rest

/-- What a class works out for a value; `get` says what other values show. -/
def workOut (w : World ε) (get : Value → String → Except Failure Member) (v : Value) :
    Getter → Except Failure Member
  | .along path => reached get v path
  | .present path => do return .value (.bool ((← reached get v path).plain ≠ .none))
  | .table path => do
    match (← reached get v path).plain with
    | .none => return .value .none
    | session => get session Session.tableField
  | .count field => do return .value (.int (← w.length (w.ownValue v field)))
  | .parkedCount =>
    w.locked (w.ownValue v Policy.lockField) do
      return .value (.int (← w.length (w.ownValue v Policy.registryField)))
  | .parkedNames =>
    w.locked (w.ownValue v Policy.lockField) do
      match w.ownValue v Policy.registryField with
      | .dictionary r =>
        return .listing (← (w.dictionaries.get r).values.mapM fun call => do
          return (← get call ParkedCall.threadField).plain)
      | other => throw (.missingAttribute (w.typeName other) "values")
  | .elapsed => w.timeSince (w.ownValue v Session.startedField)
  | .fixed m => .ok m

/-- What a value shows under a name, where at most `fuel` objects ask one another. -/
def memberWithin (w : World ε) : Nat → Value → String → Except Failure Member
  | fuel, v, name =>
    match w.getter? v name, fuel with
    | none, _ => w.memberHere v name
    | some g, fuel + 1 => w.workOut (w.memberWithin fuel) v g
    | some _, 0 => .error .tooDeep

/-- What a value shows under a name. -/
def member (w : World ε) (v : Value) (name : String) : Except Failure Member :=
  w.memberWithin w.extent v name

/-- What is shown, as a value; methods are bound anew each time. -/
def reveal (w : World ε) (v : Value) : Member → Value × World ε
  | .value x => (x, w)
  | .number x => w.newFloat x
  | .bound m => w.newMethod v m
  | .function m => (.function m, w)
  | .row items => w.newTuple items
  | .listing items => w.newList items

/-- The value of an attribute that is no method and not made anew. -/
def attrValue (w : World ε) (v : Value) (name : String) : Except Failure Value := do
  return (← w.member v name).plain

/-- The names under which the class of a value works something out that cannot be assigned. -/
def computedNames (w : World ε) : Value → List String
  | .walker _ =>
    ["options", "step_mother", "observers", "legacy_observers", "guard", "policy", "session",
     "is_walking", "current_table"]
  | .token _ => ["session", "depth", "waiting"]
  | .session _ => ["elapsed"]
  | .policy r =>
    if (w.policies.get r).body = .park then ["parked_count", "parked_threads"] else []
  | .observer r => if (w.observers.get r).cls.hasLog then ["depth"] else []
  | .event _ => ["method_name", "params", "is_composite"]
  | _ => []

/-- Assigns an attribute that a value carries itself. -/
def setOwn (w : World ε) (v : Value) (name : String) (x : Value) : World ε :=
  w.modifyOwn v (·.set name x)

/-- Assigns an attribute of an exception: its arguments are turned into a tuple, its fields and its
other attributes are kept apart. -/
def setExceptionField (w : World ε) (r : Ref .exception) (name : String) (x : Value) :
    Except Failure Unit × World ε :=
  let e := w.exceptions.get r
  if name = "args" then
    match w.elementsOf x with
    | .error f => (.error f, w)
    | .ok items =>
      match x with
      | .tuple row =>
        (.ok (), { w with exceptions := w.exceptions.set r { e with args := row } })
      | _ =>
        let (row, w) := w.storeTuple items
        (.ok (), { w with exceptions := w.exceptions.set r { e with args := row } })
  else if e.slots.has name then
    (.ok (),
      { w with exceptions := w.exceptions.set r { e with slots := e.slots.set name x } })
  else (.ok (), w.setOwn (.exception r) name x)

/-- Assigns an attribute of a node: foreign code may be in the way, and objects of some classes have
no attributes. -/
def setNodeField (obstruct : Obstruction ε) (w : World ε) (r : Ref .node) (name : String)
    (x : Value) : Except Failure Unit × World ε :=
  let cls := (w.nodes.get r).cls
  match cls.obstructing? name with
  | some id =>
    let (f, w) := obstruct id w
    (.error f, w)
  | none =>
    if cls.hasAttributes then (.ok (), w.setOwn (.node r) name x)
    else if (w.classMember? (.node r) name).isSome then (.error (.readOnly cls.name name), w)
    else (.error (.unassignable cls.name name), w)

/-- Assigns an attribute of a function: its names are texts. -/
def setFunctionField (w : World ε) (v : Value) (name : String) (x : Value) :
    Except Failure Unit × World ε :=
  let isName := name = Described.nameField || name = Described.fullNameField
  match x with
  | .text _ => (.ok (), w.setOwn v name x)
  | x => if isName then (.error (.notNameText name), w) else (.ok (), w.setOwn v name x)

/-- Why an attribute of a method cannot be assigned. -/
def methodProblem (w : World ε) (r : Ref .method) (name : String) : Failure :=
  let typeName := (w.methods.get r).typeName
  if typeName = "method" then
    if name = Method.selfField || name = Method.functionField then .readOnlyMember
    else if name = Described.purposeField then .notWritable typeName name
    else .unassignable typeName name
  else if (w.methodMember? r name).isSome then .notWritable typeName name
  else .unassignable typeName name

/-- Assigns an attribute of a value. -/
def setField (obstruct : Obstruction ε) (w : World ε) (v : Value) (name : String) (x : Value) :
    Except Failure Unit × World ε :=
  match v with
  | .node r => setNodeField obstruct w r name x
  | .exception r => w.setExceptionField r name x
  | .method r => (.error (w.methodProblem r name), w)
  | .function _ | .ownAccept _ | .wrapper _ | .block .. => w.setFunctionField v name x
  | v =>
    if (w.computedNames v).contains name then
      (.error (.fixedAttribute (w.typeName v) name), w)
    else if (w.getter? v name).isSome then (.error (.fixedMember name), w)
    else if (w.own? v).isSome then (.ok (), w.setOwn v name x)
    else if (w.classMember? v name).isSome then (.error (.readOnly (w.typeName v) name), w)
    else (.error (.unassignable (w.typeName v) name), w)

/-- An attribute of its own hides what the class of a value has. -/
theorem memberHere_of_own {w : World ε} {v x : Value} {name : String}
    (ho : ((w.own? v).getD []).get? name = some x) : w.memberHere v name = .ok (.value x) := by
  simp [memberHere, ho]

/-- What the class of a value does not work out is shown as it is kept. -/
theorem member_of_getter_none {w : World ε} {v : Value} {name : String}
    (h : w.getter? v name = none) : w.member v name = w.memberHere v name := by
  unfold member memberWithin
  simp [h]

/-- Without obstacles an assignment sets the attribute of a node and nothing else. -/
theorem setNodeField_ok {obstruct : Obstruction ε} {w : World ε} {r : Ref .node} {name : String}
    (ho : (w.nodes.get r).cls.obstructing? name = none)
    (ha : (w.nodes.get r).cls.hasAttributes = true) (x : Value) :
    setNodeField obstruct w r name x = (.ok (), w.modifyOwn (.node r) (·.set name x)) := by
  simp [setNodeField, ho, ha, setOwn]

end World

end GuardedWalk
