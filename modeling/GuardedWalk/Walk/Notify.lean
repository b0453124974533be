import GuardedWalk.Call
import GuardedWalk.Recording

/-!
# Notifications

Before a block the guard is put on the first argument of the event and each observer is told that
the event begins; after the block each observer is told that it ends. Whatever fails ends the
notification. What observers of the library's own classes do about it is fixed; scripted observers
run foreign code.

## Main definitions

* `GuardedWalk.Walk.before`, `after` — the notifications around a block.
* `GuardedWalk.Walk.hearBefore`, `hearAfter`, `hearEvent` — what an observer does when notified.
* `GuardedWalk.Walk.forget` — a recorder forgets its notes.
-/

set_option autoImplicit false

namespace GuardedWalk

namespace Walk

open Routine

variable {ε κ : Type}

/-- Logs a notification and makes each of the observers that are notified take a turn. -/
def tellAll (b : Ref .adapter) (phase : Message) (e : Value) (turn : Turn) : Steps ε κ Value := do
  let name ← readAttr e Recording.nameField
  let notified ← own (.adapter b) Broadcast.notifiedField
  let count ← examine (·.length notified)
  act (Act.log .debug .broadcast fun w => do
    return phase.name ++ " " ++ (← w.plain name) ++ " -> " ++ toString count ++ " observer(s)")
  forEach notified turn

/-- Puts the guard on the first argument of an event and tells the observers that the event
begins. -/
def before (b : Ref .adapter) (e : Value) (args : List Value) : Steps ε κ Value := do
  match args with
  | [] => pure ()
  | node :: _ =>
    let _ ← send (← own (.adapter b) Broadcast.guardField) .install [node]
  tellAll b .before e (.before e args)

/-- Tells the observers that an event ends. -/
def after (b : Ref .adapter) (e : Value) : Steps ε κ Value := tellAll b .after e .after

/-- The class of an observer. -/
def classOf (o : Ref .observer) : Steps ε κ ObserverClass := do
  return (← read (·.observers.get o)).cls

/-- The lock of a recorder is taken. -/
def lockRecorder (o : Ref .observer) : Steps ε κ Unit := do
  act (Act.checkLock (← own (.observer o) Observer.lockField))

/-- The innermost of the open events that an observer keeps in an attribute is closed; says which
one that was. -/
def closeEvent (o : Ref .observer) (field : String) : Steps ε κ Value := do
  let opened ← own (.observer o) field
  if ← examine (·.isTrue opened) then send opened .pop [] else return .none

/-- An observer notes in one word that an event begins. -/
def noteWord (o : Ref .observer) (e : Value) : Steps ε κ Unit := do
  let name ← examine (Recording.nameOfEvent · e)
  appendTo (.observer o) Observer.callsField (.text (Message.before.name ++ ":" ++ name))

/-- An observer is told that an event begins. -/
def hearBefore (F : Foreign ε κ) (t : Thread) (o : Ref .observer) (e : Value)
    (args : List Value) : Steps ε κ Value := do
  match ← classOf o with
  | .recording | .both =>
    lockRecorder o
    appendTo (.observer o) Observer.openField e
    let row ← act (Act.addTuple args)
    let note ← act (Act.addTuple [Recording.beforeWord, e, row])
    appendTo (.observer o) Observer.notesField note
    return .none
  | .duck | .virtual =>
    noteWord o e
    return .none
  | .scripted =>
    appendTo (.observer o) Observer.stackField e
    noteWord o e
    F.before t o e args
  | .recordingEvent | .plain => return .none

/-- An observer is told that an event ends. -/
def hearAfter (F : Foreign ε κ) (t : Thread) (o : Ref .observer) : Steps ε κ Value := do
  match ← classOf o with
  | .recording | .both =>
    lockRecorder o
    let ended ← closeEvent o Observer.openField
    let note ← act (Act.addTuple [Recording.afterWord, ended])
    appendTo (.observer o) Observer.notesField note
    return .none
  | .duck | .virtual =>
    appendTo (.observer o) Observer.callsField Recording.afterWord
    return .none
  | .scripted =>
    let ended ← closeEvent o Observer.stackField
    appendTo (.observer o) Observer.callsField Recording.afterWord
    F.after t o ended
  | .recordingEvent | .plain => return .none

/-- The single callback of the newer protocol. -/
def hearEvent (o : Ref .observer) (phase e : Value) (args : List Value) : Steps ε κ Value := do
  match ← classOf o with
  | .recordingEvent =>
    let row ← act (Act.addTuple args)
    appendTo (.observer o) Observer.callsField (← act (Act.addTuple [phase, e, row]))
    return .none
  | _ => throw (.raised (← update (·.newException .assertionError [.text "never called"] [])))

/-- A recorder forgets its notes and the open events. -/
def forget (o : Ref .observer) : Steps ε κ Value := do
  lockRecorder o
  let _ ← send (← own (.observer o) Observer.notesField) .clear []
  let _ ← send (← own (.observer o) Observer.openField) .clear []
  return .none

end Walk

end GuardedWalk
