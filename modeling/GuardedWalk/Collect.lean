import GuardedWalk.Walk

/-!
# Walking a whole document

The short way to walk: make a walker, enter the root of a document, and look at the walker or at
what a recorder has heard.

## Main definitions

* `GuardedWalk.Walk.newWalker` — makes a walker.
* `GuardedWalk.Walk.walkDocument` — walks a document with a walker of its own.
* `GuardedWalk.Walk.collectEvents` — the notifications of a walk of a document.
-/

set_option autoImplicit false

namespace GuardedWalk

namespace Act

variable {ε : Type}

/-- Adds an empty list for each of some attributes. -/
def emptyLists : List String → Act ε Attributes
  | [] => return []
  | name :: rest => do
    let list ← addList []
    return (name, list) :: (← emptyLists rest)

/-- What observers of a class keep in the beginning. -/
def memoryOf : ObserverClass → Act ε Attributes
  | .recording | .both => do
    let lists ← emptyLists [Observer.notesField, Observer.openField]
    return lists ++ [(Observer.lockField, ← make (·.newLock))]
  | .recordingEvent | .duck | .virtual => emptyLists [Observer.callsField]
  | .scripted => emptyLists [Observer.stackField, Observer.callsField]
  | .plain => return []

/-- Adds an observer that has heard nothing. -/
def newObserver (cls : ObserverClass) (code : Nat) : Act ε Value := do
  let attributes ← memoryOf cls
  make fun w =>
    (.observer w.observers.next, { w with observers := w.observers.add ⟨cls, code, attributes⟩ })

end Act

namespace Walk

open Routine

variable {ε κ : Type}

/-- A configuration, or one whose settings are all left out if there is none. -/
def configOr (config : Value) : Steps ε κ Value :=
  if config = .none then act (Act.newConfig Config.plain) else return config

/-- Makes a walker for some observers, unless its configuration has problems. -/
def newWalker (observers : List Value) (config stepMother : Value) : Steps ε κ Value := do
  let config ← configOr config
  let problems ← send config .validate []
  if ← examine (·.isTrue problems) then
    throw (.configuration (← examine fun w => do Act.textsFrom w 0 (← w.elementsOf problems)))
  act (Act.assembleWalker observers config stepMother)

/-- Makes a walker and walks a document with it. -/
def walkDocument (document : Value) (observers : List Value) (config stepMother : Value) :
    Steps ε κ Value := do
  let walker ← newWalker observers config stepMother
  let _ ← send walker (.entry .features) [document]
  return walker

/-- Walks a document and says what a recorder has heard, in order. -/
def collectEvents (document config : Value) : Steps ε κ (List Value) := do
  let recorder ← act (Act.newObserver .recording 0)
  let _ ← walkDocument document [recorder] config .none
  let notes ← readAttr recorder Observer.notesField
  examine (·.elementsOf notes)

end Walk

end GuardedWalk
