import GuardedWalk.Event

/-!
# Messages

What walkers, nodes, observers, guards, policies and tokens ask one another to do. A message has
the name under which an object keeps the method that answers it; an object can also carry an
attribute of that name, which then stands in the way of the method.

## Main definitions

* `GuardedWalk.Message` — the messages.
* `GuardedWalk.Message.name` — the name of the method that answers a message.
* `GuardedWalk.Message.ofName?` — the message of a name.
-/

set_option autoImplicit false

namespace GuardedWalk

/-- What one object can ask of another. -/
inductive Message where
  /-- Hand your parts on to a visitor. -/
  | accept
  /-- An entry method: walk what an event is about. -/
  | entry (e : Event)
  /-- Run a block between the notifications of an event, holding the token meanwhile. -/
  | visit
  /-- Run a block between the notifications of an event. -/
  | broadcast
  /-- An event begins. -/
  | before
  /-- An event ends. -/
  | after
  /-- The single callback of the newer protocol. -/
  | onEvent
  /-- Answer an attempt at foreign traversal. -/
  | handle
  /-- Let parked callers go on. -/
  | resume
  /-- Make those who wait give up. -/
  | cancel
  /-- Wake parked callers. -/
  | wake
  /-- Sum up the recorded attempts. -/
  | statistics
  /-- Put a guard on a node. -/
  | install
  /-- Take the guard off a node. -/
  | uninstall
  /-- Say whether a node has a guard. -/
  | isGuarded
  /-- Say whether a visitor may traverse guarded nodes. -/
  | isCanonical
  /-- Answer a call of a wrapper. -/
  | dispatch
  /-- Hold a token for the duration of a block. -/
  | hold
  /-- Get a token for the calling thread. -/
  | acquire
  /-- Give a token back. -/
  | release
  /-- Say whether the calling thread holds a token. -/
  | isOwned
  /-- End a session. -/
  | close
  /-- Say what is wrong with a configuration. -/
  | validate
  /-- Make a configuration that parks foreign callers. -/
  | classic
  /-- Make a configuration that refuses foreign callers. -/
  | strict
  /-- Make a configuration that records foreign callers. -/
  | lenient
  /-- Write the notes of a recorder as words. -/
  | names
  /-- Say which events have begun. -/
  | beforeEvents
  /-- Say with which arguments an event has begun. -/
  | argsFor
  /-- Forget everything that is kept. -/
  | clear
  /-- Show the contents of a table. -/
  | raw
  /-- Make a table or a row from plain values. -/
  | fromValues
  /-- Put an element at the end. -/
  | append
  /-- Put an element before a place. -/
  | insert
  /-- Take an element out. -/
  | pop
deriving DecidableEq, Repr, Inhabited

namespace Message

/-- The name of the method that answers a message. -/
def name : Message → String
  | accept => "accept"
  | entry e => e.methodName
  | visit => "_visit"
  | broadcast => "_broadcast"
  | before => "before"
  | after => "after"
  | onEvent => "on_event"
  | handle => "handle"
  | resume => "resume"
  | cancel => "cancel"
  | wake => "_wake"
  | statistics => "get_statistics"
  | install => "install"
  | uninstall => "uninstall"
  | isGuarded => "is_guarded"
  | isCanonical => "is_canonical"
  | dispatch => "_dispatch"
  | hold => "hold"
  | acquire => "_acquire"
  | release => "_release"
  | isOwned => "owned_by_current_thread"
  | close => "close"
  | validate => "validate"
  | classic => "legacy"
  | strict => "strict"
  | lenient => "lenient"
  | names => "names"
  | beforeEvents => "before_events"
  | argsFor => "args_for"
  | clear => "clear"
  | raw => "raw"
  | fromValues => "from_values"
  | append => "append"
  | insert => "insert"
  | pop => "pop"

/-- The messages that are no entry methods. -/
def others : List Message :=
  [accept, visit, broadcast, before, after, onEvent, handle, resume, cancel, wake, statistics,
   install, uninstall, isGuarded, isCanonical, dispatch, hold, acquire, release, isOwned, close,
   validate, classic, strict, lenient, names, beforeEvents, argsFor, clear, raw, fromValues, append,
   insert, pop]

/-- The message of a name. -/
def ofName? (name : String) : Option Message :=
  match Event.ofMethod? name with
  | some e => some (entry e)
  | none => others.find? fun m => m.name == name

/-- Whether the method that answers a message needs no object. -/
def needsNoObject : Message → Bool
  | isCanonical | isGuarded | uninstall => true
  | _ => false

/-- A name leads back to the message that it is the name of. -/
theorem ofName?_name (m : Message) : ofName? m.name = some m := by
  cases m
  case entry e =>
    have h : Event.ofMethod? e.methodName = some e := Event.ofMethod?_eq_some_iff.2 rfl
    simp only [ofName?, name, h]
  all_goals decide

end Message

end GuardedWalk
