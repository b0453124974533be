import GuardedWalk.World.Act

/-!
# Recording the notifications of a walk

A notification that a node is done does not say which one, so a recorder keeps the events that are
still open and takes the latest of them to be the one that ends. A note of a beginning is a tuple of
the word `before`, the event and its arguments; a note of an end is a tuple of the word `after` and
the event. The notes are kept in a list that others may hold and change, so what is read from them
can be anything.

## Main definitions

* `GuardedWalk.Recording.nameOfEvent` — the name of what a notification is about.
* `GuardedWalk.Recording.noteName`, `isBeginning` — what a note says.
* `GuardedWalk.Recording.names`, `begunEvents`, `argsOf` — what a recorder answers.
-/

set_option autoImplicit false

namespace GuardedWalk

namespace Recording

variable {ε : Type}

open Act

/-- The attribute under which the name of an event is found. -/
def nameField : String := "value"

/-- The name of what a notification is about. -/
def nameOfEvent (w : World ε) (e : Value) : Except Failure String := do
  w.plain (← w.attrValue e nameField)

/-- The word that a note of a beginning starts with. -/
def beforeWord : Value := .text Message.before.name

/-- The word that a note of an end starts with. -/
def afterWord : Value := .text Message.after.name

/-- The notes of a recorder. -/
def notesOf (w : World ε) (o : Ref .observer) : Except Failure (List Value) :=
  w.elementsOf (w.ownValue (.observer o) Observer.notesField)

/-- A note as one word. -/
def noteName (w : World ε) (note : Value) : Except Failure String := do
  let phase ← w.plain (← w.item note (.int 0))
  let e ← w.item note (.int 1)
  if ← w.isTrue e then return phase ++ ":" ++ (← nameOfEvent w e)
  else return phase ++ ":None"

/-- The notes of a recorder as words. -/
def names (w : World ε) (o : Ref .observer) : Except Failure (List String) := do
  (← notesOf w o).mapM (noteName w)

/-- Whether a note says that an event begins. -/
def isBeginning (w : World ε) (note : Value) : Except Failure Bool := do
  return (← w.item note (.int 0)) = beforeWord

/-- The events that have begun. -/
def begunEvents (w : World ε) (o : Ref .observer) : Except Failure (List Value) := do
  (← notesOf w o).filterMapM fun note => do
    if ← isBeginning w note then return some (← w.item note (.int 1)) else return none

/-- The arguments of every beginning of an event. -/
def argsOf (w : World ε) (o : Ref .observer) (e : Value) : Except Failure (List Value) := do
  (← notesOf w o).filterMapM fun note => do
    if ← isBeginning w note then
      if (← w.item note (.int 1)) = e then return some (← w.item note (.int 2))
      else return none
    else return none

end Recording

end GuardedWalk
