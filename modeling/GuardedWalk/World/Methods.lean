import GuardedWalk.World

/-!
# The methods of objects

A method is defined by a class, which need not be the class of the object: a table of an outline has
the methods of tables, and an observer may have those of a class that it extends. The methods of
lists and dictionaries come with plain data.

## Main definitions

* `GuardedWalk.World.understands` — whether the class of a value has a method for a message.
* `GuardedWalk.World.ownerName`, `methodName` — the class that defines a method, and its full name.
* `GuardedWalk.World.described` — what a method says about itself.
-/

set_option autoImplicit false

namespace GuardedWalk

/-- The class that defines the traversal of a class of nodes. -/
def NodeClass.definingName : NodeClass → String
  | .document .outlineTable => DocumentClass.table.name
  | c => c.name

/-- The class of observers that defines the method of another one for a message. -/
def ObserverClass.definer : ObserverClass → Message → ObserverClass
  | .both, .onEvent => .both
  | .both, _ => .recording
  | .virtual, _ => .duck
  | c, _ => c

/-- Where a class of observers is defined. -/
def ObserverClass.place : ObserverClass → Place
  | .recording | .recordingEvent => .fixtures
  | _ => .outside

/-- Whether the method for a message belongs to a class rather than to its objects. -/
def Message.isOfClass : Message → Bool
  | .fromValues | .classic | .strict | .lenient => true
  | _ => false

namespace World

variable {ε : Type}

/-- Whether the class of a value has a method for a message. -/
def understands (w : World ε) : Value → Message → Bool
  | .node r, m =>
    match (w.nodes.get r).cls with
    | .foreign c => m = .accept && c.accept = .code
    | .document c =>
      match m with
      | .accept => true
      | .raw => c = .table || c = .outlineTable
      | .fromValues => c = .table || c = .outlineTable || c = .tableRow
      | _ => false
  | .list _, m => m = .append || m = .insert || m = .pop || m = .clear
  | .dictionary _, m => m = .pop || m = .clear
  | .config _, m => m = .validate || m = .classic || m = .strict || m = .lenient
  | .policy r, m =>
    match (w.policies.get r).body, m with
    | _, .handle => true
    | .park, .resume | .park, .cancel | .park, .wake => true
    | .record, .statistics => true
    | _, _ => false
  | .token _, m => m = .hold || m = .cancel || m = .isOwned || m = .acquire || m = .release
  | .session _, m => m = .close
  | .guard _, m =>
    m = .install || m = .dispatch || m = .isCanonical || m = .isGuarded || m = .uninstall
  | .adapter _, m => m = .before || m = .after
  | .walker _, m =>
    match m with
    | .entry _ | .cancel | .visit | .broadcast => true
    | _ => false
  | .observer r, m =>
    let cls := (w.observers.get r).cls
    match m with
    | .before | .after => cls.takesNotifications
    | .onEvent => cls = .recordingEvent || cls = .both
    | .names | .beforeEvents | .argsFor | .clear => cls.hasLog
    | _ => false
  | .visitor r, m =>
    match m with
    | .entry e => (w.visitors.get r).methods.contains e
    | _ => false
  | _, _ => false

/-- The name of the class that defines the method of an object for a message. -/
def ownerName (w : World ε) (self : Value) (m : Message) : String :=
  if m.needsNoObject then Guard.className
  else
    match self with
    | .node r => (w.nodes.get r).cls.definingName
    | .observer r => ((w.observers.get r).cls.definer m).name
    | v => w.typeName v

/-- The full name of the method of an object for a message. -/
def methodName (w : World ε) (self : Value) (m : Message) : String :=
  w.ownerName self m ++ "." ++ m.name

/-- Where the method of an object for a message is defined, if that is known. -/
def homeOf (w : World ε) (self : Value) (m : Message) : Option Place :=
  match self with
  | .node r => if (w.nodes.get r).cls.isForeign then some .outside else some .nodes
  | .config _ => some .config
  | .policy r => if (w.policies.get r).body.isForeign then some .outside else some .guard
  | .guard _ => some .guard
  | .token _ | .session _ => some .session
  | .adapter _ => some .broadcast
  | .walker _ => some .walker
  | .observer r => some ((w.observers.get r).cls.definer m).place
  | .visitor _ => some .outside
  | _ => none

/-- What the method of an object for a message says that it is for. -/
def purpose? (w : World ε) (self : Value) (m : Message) : Option String :=
  match self with
  | .node r =>
    match (w.nodes.get r).cls with
    | .document c => c.purpose? m
    | .foreign _ => none
  | .list _ => listPurpose? m
  | .dictionary _ => dictionaryPurpose? m
  | .config _ => Config.purpose? m
  | .policy r => (w.policies.get r).body.purpose? m
  | .guard _ => Guard.purpose? m
  | .token _ => Token.purpose? m
  | .adapter _ => Broadcast.purpose? m
  | .walker _ => Walker.purpose? m
  | .observer r => if (w.observers.get r).cls.hasLog then Recording.purpose? m else none
  | _ => none

/-- What the method of an object for a message says about itself. -/
def described (w : World ε) (self : Value) (m : Message) : Described :=
  ⟨w.homeOf self m, m.name, w.methodName self m, w.purpose? self m⟩

/-- What something that can be called says about itself, as attributes, with the attributes that it
carries besides. -/
def callableAttributes (w : World ε) : Value → Attributes
  | .method r =>
    let x := w.methods.get r
    (w.described x.self x.message).attributes
  | v => (w.own? v).getD []

/-- The full name under which something callable tells that it was called wrongly. -/
def fullName (w : World ε) (v : Value) : String :=
  match (w.callableAttributes v).get? Described.fullNameField with
  | some (.text s) => s
  | _ => w.typeName v

end World

end GuardedWalk
