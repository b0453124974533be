import GuardedWalk.Dictionary
import GuardedWalk.Node

/-!
# Objects of a walk

The objects other than nodes: walkers with their settings, guards, tokens and policies, observers
and visitors, and what threads wait for. What an object keeps is among its attributes, where others
can reach it, unless nothing but the object itself has a use for it.

## Main definitions

* `GuardedWalk.Config`, `Policy`, `Session`, `Token`, `Guard`, `Broadcast`, `Walker`, `Wrapper`,
  `Method`, `Observer`, `Visitor` — the objects.
* `GuardedWalk.Condition`, `ParkedCall` — what threads wait for.
* `GuardedWalk.ObserverClass`, `ObserverKind` — the classes of observers, and what they declare.
* `GuardedWalk.LogRecord` — the log records.

## Main results

* `GuardedWalk.ObserverClass.takesNotifications_of_legacy` — observers that are notified have the
  calls for it.
-/

set_option autoImplicit false

namespace GuardedWalk

/-- The configuration of a walker. Settings are checked when a walker is made, not before, so each
may hold any value. -/
structure Config where
  /-- The settings, under their names. -/
  attributes : Attributes

instance : Inhabited Config := ⟨⟨[]⟩⟩

namespace Config

/-- How foreign traversal is answered. -/
def foreignTraversal (c : Config) : Value := c.attributes.value "foreign_traversal"

/-- The policy of the mode that leaves the answer to the user. -/
def customPolicy (c : Config) : Value := c.attributes.value "custom_policy"

/-- How long a parked call may last. -/
def parkTimeout (c : Config) : Value := c.attributes.value "park_timeout"

/-- How long another thread may wait for the walker. -/
def ownershipTimeout (c : Config) : Value := c.attributes.value "ownership_timeout"

/-- Options for observers. -/
def options (c : Config) : Value := c.attributes.value "options"

/-- The names of the settings, in order. -/
def settingNames : List String :=
  ["foreign_traversal", "custom_policy", "park_timeout", "ownership_timeout", "quiet", "verbose",
   "options"]

/-- The settings, in order. -/
def settings (c : Config) : List Value := settingNames.map c.attributes.value

end Config

/-- How a policy answers an attempt at foreign traversal. -/
inductive PolicyBody where
  /-- The attempt fails. -/
  | reject
  /-- The calling thread is suspended and entered in a registry. -/
  | park
  /-- The attempt is reported. -/
  | record
  /-- Foreign code answers. -/
  | custom (code : Nat)
deriving DecidableEq, Repr

/-- Whether the policy is one of the user. -/
def PolicyBody.isForeign : PolicyBody → Bool
  | custom _ => true
  | _ => false

/-- The class of a policy. -/
def PolicyBody.typeName : PolicyBody → String
  | reject => "RejectPolicy"
  | park => "ParkPolicy"
  | record => "RecordPolicy"
  | custom _ => "ScriptPolicy"

/-- What answers an attempt at foreign traversal. -/
structure Policy where
  /-- How it answers. -/
  body : PolicyBody
  /-- The attributes: the timeout and the registry of one that parks, the reports of one that
  records. -/
  attributes : Attributes

instance : Inhabited Policy := ⟨⟨.reject, []⟩⟩

namespace Policy

/-- The attribute that says how long a parked call may last. -/
def timeoutField : String := "timeout"

/-- The attribute that holds the lock of a policy. -/
def lockField : String := "_lock"

/-- The attribute under which a policy keeps the parked calls, by the numbers of their threads. -/
def registryField : String := "_parked"

/-- The attribute under which a policy keeps its reports. -/
def reportsField : String := "reports"

/-- The attribute that says whether reports are logged. -/
def verboseField : String := "verbose"

/-- What a policy that parks callers keeps. -/
def parking (timeout lock registry : Value) : Attributes :=
  [(timeoutField, timeout), (lockField, lock), (registryField, registry)]

/-- What a policy that reports attempts keeps. -/
def recording (reports verbose lock : Value) : Attributes :=
  [(reportsField, reports), (verboseField, verbose), (lockField, lock)]

end Policy

/-- A call that a policy has suspended. -/
structure ParkedCall where
  /-- The suspended thread. -/
  thread : Thread
  /-- Whether the thread is still inside its wait. -/
  asleep : Bool
  /-- Whether the thread has been woken. -/
  woken : Bool
  /-- The attributes: what the call was about, and whether the latest wake was a cancellation. -/
  attributes : Attributes

instance : Inhabited ParkedCall := ⟨⟨default, false, false, []⟩⟩

namespace ParkedCall

/-- The attribute that holds the name of the suspended thread. -/
def threadField : String := "thread_name"

/-- The attribute that says whether the latest wake was a cancellation. -/
def cancelledField : String := "cancelled"

/-- The attribute that holds what the suspended thread waits for. -/
def wakeField : String := "wake"

/-- A call that is about to be suspended. -/
def new (t : Thread) (node visitor wake : Value) : ParkedCall :=
  ⟨t, true, false,
    [("node", node), ("visitor", visitor), (threadField, .text t.name), (wakeField, wake),
     (cancelledField, .bool false)]⟩

end ParkedCall

/-- A lock whose holders can wait for one another. -/
structure Condition where
  /-- The threads that wait and have not been woken. -/
  asleep : List Thread
deriving DecidableEq, Repr

instance : Inhabited Condition := ⟨⟨[]⟩⟩

/-- The token that a thread must hold to walk. -/
structure Token where
  /-- The attributes: how long a competing thread may wait, the condition on which it does, the
  session in flight, how many blocks are open, how often waits have been cancelled and how many
  threads wait. -/
  attributes : Attributes

instance : Inhabited Token := ⟨⟨[]⟩⟩

namespace Token

/-- The attribute that says how long a competing thread may wait. -/
def timeoutField : String := "timeout"

/-- The attribute that holds the condition on which threads wait. -/
def conditionField : String := "_cond"

/-- The attribute that holds the session in flight. -/
def sessionField : String := "_session"

/-- The attribute that says how many blocks of the owner are open. -/
def depthField : String := "_depth"

/-- The attribute that says how often waits have been cancelled. -/
def generationField : String := "_generation"

/-- The attribute that says how many threads are inside a wait. -/
def waitingField : String := "_waiting"

/-- An idle token. -/
def new (timeout condition : Value) : Token :=
  ⟨[(timeoutField, timeout), (conditionField, condition), (sessionField, .none),
    (depthField, .int 0), (generationField, .int 0), (waitingField, .int 0)]⟩

end Token

/-- The state of one walk. -/
structure Session where
  /-- The attributes: the thread, when the walk began, the outline table most recently entered and
  whether the walk is over. -/
  attributes : Attributes

instance : Inhabited Session := ⟨⟨[]⟩⟩

namespace Session

/-- The attribute that says which thread the walk runs on. -/
def threadField : String := "thread_ident"

/-- The attribute that says which outline table was entered most recently. -/
def tableField : String := "current_table"

/-- The attribute that says whether the walk is over. -/
def closedField : String := "closed"

/-- The attribute that holds the name of the thread that the walk runs on. -/
def threadNameField : String := "thread_name"

/-- The attribute that says when the walk began. -/
def startedField : String := "started"

/-- A session in flight. -/
def opened (thread threadName table : Value) : Session :=
  ⟨[(threadField, thread), (threadNameField, threadName), (startedField, .float .zero),
    (tableField, table), (closedField, .bool false)]⟩

/-- The session after its walk. -/
def close (s : Session) : Session :=
  ⟨(s.attributes.set tableField .none).set closedField (.bool true)⟩

end Session

/-- What installs wrappers on nodes and answers calls of them. -/
structure Guard where
  /-- The attributes: the walker that the guard belongs to, the token of that walker, what answers
  foreign traversal and whether no warning is logged. -/
  attributes : Attributes

instance : Inhabited Guard := ⟨⟨[]⟩⟩

namespace Guard

/-- The name of the class of guards. -/
def className : String := "ForeignTraversalGuard"

/-- The attribute that holds the walker that a guard belongs to. -/
def walkerField : String := "walker"

/-- The attribute that holds the token of that walker. -/
def ownershipField : String := "ownership"

/-- The attribute that holds what answers foreign traversal. -/
def policyField : String := "policy"

/-- The attribute that says whether no warning is logged. -/
def quietField : String := "quiet"

/-- A guard. -/
def new (walker ownership policy quiet : Value) : Guard :=
  ⟨[(walkerField, walker), (ownershipField, ownership), (policyField, policy),
    (quietField, quiet)]⟩

/-- The walker that the guard belongs to. -/
def walker (g : Guard) : Value := g.attributes.value walkerField

end Guard

/-- What hands notifications on to observers. -/
structure Broadcast where
  /-- The attributes: all observers that were given, the guard put on the nodes that are announced,
  and the observers that are notified. -/
  attributes : Attributes

instance : Inhabited Broadcast := ⟨⟨[]⟩⟩

namespace Broadcast

/-- The attribute that holds all observers that were given. -/
def observersField : String := "observers"

/-- The attribute that holds the guard put on the nodes that are announced. -/
def guardField : String := "guard"

/-- The attribute that holds the observers that are notified. -/
def notifiedField : String := "legacy_observers"

/-- What hands notifications on. -/
def new (observers guard notified : Value) : Broadcast :=
  ⟨[(observersField, observers), (guardField, guard), (notifiedField, notified)]⟩

end Broadcast

/-- A walker. -/
structure Walker where
  /-- The attributes: the configuration, what executes steps, the token, what answers foreign
  traversal, the guard and what notifies the observers. -/
  attributes : Attributes

instance : Inhabited Walker := ⟨⟨[]⟩⟩

namespace Walker

/-- The attribute that holds the configuration of a walker. -/
def configField : String := "config"

/-- The attribute that holds what executes steps. -/
def stepMotherField : String := "_step_mother"

/-- The attribute that holds the token of a walker. -/
def ownershipField : String := "_ownership"

/-- The attribute that holds what answers foreign traversal. -/
def policyField : String := "_policy"

/-- The attribute that holds the guard of a walker. -/
def guardField : String := "_guard"

/-- The attribute that holds what notifies the observers of a walker. -/
def broadcastField : String := "_legacy"

/-- A walker. -/
def new (config stepMother ownership policy guard broadcast : Value) : Walker :=
  ⟨[(configField, config), (stepMotherField, stepMother), (ownershipField, ownership),
    (policyField, policy), (guardField, guard), (broadcastField, broadcast)]⟩

end Walker

/-- What a guard puts in the place of a node's `accept`. -/
structure Wrapper where
  /-- The node it was made for. -/
  node : Value
  /-- What it found as `accept` then. -/
  inner : Value
  /-- The attributes: what it says about itself, and others. -/
  attributes : Attributes

instance : Inhabited Wrapper := ⟨⟨.none, .none, []⟩⟩

/-- A method of an object. -/
structure Method where
  /-- The object. -/
  self : Value
  /-- The message that the method answers. -/
  message : Message

instance : Inhabited Method := ⟨⟨.none, .accept⟩⟩

/-- The name under which a method shows its object. -/
def Method.selfField : String := "__self__"

/-- The name under which a method shows what it is made of. -/
def Method.functionField : String := "__func__"

/-- The name of the class of a method: those of plain data come with it. -/
def Method.typeName (x : Method) : String :=
  match x.self with
  | .list _ | .dictionary _ => "builtin_function_or_method"
  | _ => "method"

/-- Which notifications an observer has declared to take. -/
inductive ObserverKind where
  /-- One call before and one after each node. -/
  | legacy
  /-- One callback for everything, served by others. -/
  | event
  /-- Nothing declared. -/
  | unknown
deriving DecidableEq, Repr

/-- The word for a kind. -/
def ObserverKind.word : ObserverKind → String
  | legacy => "legacy"
  | event => "event"
  | unknown => "unknown"

/-- The classes of observers. -/
inductive ObserverClass where
  /-- Records what it is notified of. -/
  | recording
  /-- Records the single callback of the newer protocol. -/
  | recordingEvent
  /-- Takes notifications without declaring it. -/
  | duck
  /-- Takes notifications and was declared to do so by someone else. -/
  | virtual
  /-- Records notifications and declares the newer protocol as well. -/
  | both
  /-- Takes nothing. -/
  | plain
  /-- Runs foreign code when notified. -/
  | scripted
deriving DecidableEq, Repr

namespace ObserverClass

/-- The name of a class. -/
def name : ObserverClass → String
  | recording => "RecordingObserver"
  | recordingEvent => "RecordingEventObserver"
  | duck => "DuckObserver"
  | virtual => "VirtualObserver"
  | both => "BothObserver"
  | plain => "PlainObserver"
  | scripted => "ScriptObserver"

/-- What observers of a class have declared; who declares both protocols is notified like one that
declares the older. -/
def kind : ObserverClass → ObserverKind
  | recording | virtual | both | scripted => .legacy
  | recordingEvent => .event
  | duck | plain => .unknown

/-- Whether a class declares by itself which notifications it takes. -/
def isDeclared : ObserverClass → Bool
  | recording | recordingEvent | both | scripted => true
  | duck | virtual | plain => false

/-- Whether observers of a class have the calls before and after a node. -/
def takesNotifications : ObserverClass → Bool
  | recordingEvent | plain => false
  | _ => true

/-- Whether observers of a class keep a log of notes. -/
def hasLog : ObserverClass → Bool
  | recording | both => true
  | _ => false

end ObserverClass

/-- An observer. -/
structure Observer where
  /-- The class of the observer. -/
  cls : ObserverClass
  /-- The foreign code that it runs. -/
  code : Nat
  /-- The attributes: what it was notified of and which events are open. -/
  attributes : Attributes

instance : Inhabited Observer := ⟨⟨.plain, 0, []⟩⟩

namespace Observer

/-- The attribute under which a recorder keeps its notes. -/
def notesField : String := "events"

/-- The attribute under which a recorder keeps the events that are open. -/
def openField : String := "_open"

/-- The attribute under which a scripted observer keeps the events that are open. -/
def stackField : String := "open"

/-- The attribute that holds the lock of a recorder. -/
def lockField : String := "_lock"

/-- The attribute under which others than recorders keep what they were told. -/
def callsField : String := "calls"

end Observer

/-- Something with entry methods of its own. -/
structure Visitor where
  /-- The name of its class. -/
  typeName : String
  /-- The entry methods that it has. -/
  methods : List Event
  /-- The foreign code that its methods run. -/
  code : Nat
  /-- The attributes: the calls it received, and the guard that it shows as its own. -/
  attributes : Attributes

instance : Inhabited Visitor := ⟨⟨"", [], 0, []⟩⟩

/-- How grave a log record is. -/
inductive Severity where
  | debug | info | warning
deriving DecidableEq, Repr

namespace Severity

/-- The rank of a severity. -/
def rank : Severity → Nat
  | debug => 0
  | info => 1
  | warning => 2

/-- The name of a severity. -/
def name : Severity → String
  | debug => "DEBUG"
  | info => "INFO"
  | warning => "WARNING"

end Severity

/-- The part of a walker that a log record comes from. -/
inductive Channel where
  | broadcast | guard | session
deriving DecidableEq, Repr

/-- The name of a log channel. -/
def Channel.name : Channel → String
  | broadcast => "featurewalker.core.broadcast"
  | guard => "featurewalker.core.guard"
  | session => "featurewalker.core.session"

/-- A log record. -/
structure LogRecord where
  /-- How grave it is. -/
  severity : Severity
  /-- Where it comes from. -/
  channel : Channel
  /-- Its text. -/
  message : String
deriving DecidableEq, Repr

/-- Observers that are notified have the calls before and after a node. -/
theorem ObserverClass.takesNotifications_of_legacy {c : ObserverClass} (h : c.kind = .legacy) :
    c.takesNotifications = true := by
  cases c <;> simp_all [ObserverClass.kind, ObserverClass.takesNotifications]

end GuardedWalk
