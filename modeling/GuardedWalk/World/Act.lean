import GuardedWalk.World.Contents

/-!
# Acts

An act looks at the world and changes it without anything else happening meanwhile. It may fail, and
what it has changed until then stays changed.

## Main definitions

* `GuardedWalk.Act` — the acts.
* `GuardedWalk.Act.look`, `make`, `read`, `assign` — looking, adding objects, and attributes.
* `GuardedWalk.Act.collect` — an act for each of some values.

## Main results

* `GuardedWalk.Act.run_bind` — one act after another.
* `GuardedWalk.Act.run_look`, `run_see_bind` — looking changes nothing.
-/

set_option autoImplicit false

namespace GuardedWalk

/-- What changes the world in one go and may fail. -/
abbrev Act (ε α : Type) : Type := ExceptT Failure (StateM (World ε)) α

namespace Act

variable {ε α : Type}

/-- An act from what it comes to. -/
def of (f : World ε → Except Failure α × World ε) : Act ε α := f

/-- What is looked up in the world and may not be found. -/
def look (f : World ε → Except Failure α) : Act ε α := of fun w => (f w, w)

/-- What is looked up in the world. -/
def see (f : World ε → α) : Act ε α := of fun w => (.ok (f w), w)

/-- A change with a result. -/
def make (f : World ε → α × World ε) : Act ε α := of fun w =>
  let (a, w) := f w
  (.ok a, w)

/-- A change. -/
def change (f : World ε → World ε) : Act ε Unit := of fun w => (.ok (), f w)

/-- The value of an attribute of a value. -/
def read (v : Value) (name : String) : Act ε Value := do
  let m ← look (·.member v name)
  make (·.reveal v m)

/-- The value of an attribute that a value carries itself. -/
def own (v : Value) (name : String) : Act ε Value := see (·.ownValue v name)

/-- Assigns an attribute that a value carries itself. -/
def setOwn (v : Value) (name : String) (x : Value) : Act ε Unit := change (·.setOwn v name x)

/-- Assigns an attribute of a value. -/
def assign (obstruct : Obstruction ε) (v : Value) (name : String) (x : Value) : Act ε Unit :=
  of fun w => World.setField obstruct w v name x

/-- Whether a value counts as true. -/
def isTrue (v : Value) : Act ε Bool := look (·.isTrue v)

/-- The elements of a value. -/
def gather (v : Value) : Act ε (List Value) := look (·.elementsOf v)

/-- Adds a list. -/
def addList (items : List Value) : Act ε Value := make (·.newList items)

/-- Adds a tuple. -/
def addTuple (items : List Value) : Act ε Value := make (·.newTuple items)

/-- Adds a dictionary. -/
def addDictionary (d : Dictionary) : Act ε Value := make (·.newDictionary d)

/-- Adds a log record, if it is grave enough. -/
def log (severity : Severity) (channel : Channel) (text : World ε → Except Failure String) :
    Act ε Unit :=
  of fun w => w.log severity channel (text w)

/-- An act for each of some values, with what the acts come to. -/
def collect (f : Value → Act ε α) : List Value → Act ε (List α)
  | [] => return []
  | v :: rest => do
    let x ← f v
    return x :: (← collect f rest)

/-- Puts an element into a list before a place. -/
def insertAt (r : Ref .list) (index x : Value) : Act ε Unit := do
  let place ← look (·.placeToInsert r index)
  change (·.withInserted r place x)

/-- Takes an element out of a list. -/
def popAt (r : Ref .list) (index : Value) : Act ε Value := do
  let place ← look (·.placeToPop r index)
  let x ← see (·.elementAt r place)
  change (·.without r place)
  return x

/-- Takes the value under a key out of a dictionary. -/
def popKey (r : Ref .dictionary) (key : Value) : Act ε Value := do
  let x ← look (·.valueToPop r key)
  change (·.take r key)
  return x

/-- Puts a value under a key of a dictionary or in a place of a list. -/
def putItem (target key x : Value) : Act ε Unit := do
  match target with
  | .dictionary r =>
    let key ← look (·.asKey key)
    change (·.put r key x)
  | .list r =>
    let place ← look (·.placeToReplace r key)
    change (·.withReplaced r place x)
  | v => look fun w => .error (.notReplaceable (w.typeName v))

/-- A value can be held as a lock. -/
def checkLock (v : Value) : Act ε Unit := look fun w =>
  match w.lockProblem? v with
  | some f => .error f
  | none => .ok ()

/-- One act after another: the second one finds what the first one has left, unless that has
failed. -/
theorem run_bind {β : Type} (a : Act ε α) (k : α → Act ε β) (w : World ε) :
    (a >>= k).run w =
      match a.run w with
      | (.ok x, w') => (k x).run w'
      | (.error f, w') => (.error f, w') := by
  simp only [bind, ExceptT.bind, ExceptT.run, ExceptT.mk, StateT.bind]
  rcases a w with ⟨x | x, w'⟩ <;> rfl

@[simp] theorem run_pure (x : α) (w : World ε) : (pure x : Act ε α).run w = (.ok x, w) := rfl

@[simp] theorem run_throw (f : Failure) (w : World ε) :
    (throw f : Act ε α).run w = (.error f, w) := rfl

@[simp] theorem run_see (f : World ε → α) (w : World ε) : (see f).run w = (.ok (f w), w) := rfl

@[simp] theorem run_make (f : World ε → α × World ε) (w : World ε) :
    (make f).run w = (.ok (f w).1, (f w).2) := rfl

@[simp] theorem run_change (f : World ε → World ε) (w : World ε) :
    (change f).run w = (.ok (), f w) := rfl

@[simp] theorem run_own (v : Value) (name : String) (w : World ε) :
    (own v name).run w = (.ok (w.ownValue v name), w) := rfl

@[simp] theorem run_setOwn (v : Value) (name : String) (x : Value) (w : World ε) :
    (setOwn v name x).run w = (.ok (), w.setOwn v name x) := rfl

/-- Looking changes nothing. -/
@[simp] theorem run_look (f : World ε → Except Failure α) (w : World ε) :
    (look f).run w = (f w, w) := rfl

/-- What is looked up is handed on, and the world stays as it is. -/
@[simp] theorem run_see_bind {β : Type} (f : World ε → α) (k : α → Act ε β) (w : World ε) :
    (see f >>= k).run w = (k (f w)).run w := rfl

end Act

end GuardedWalk
