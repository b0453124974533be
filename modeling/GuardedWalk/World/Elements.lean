import GuardedWalk.World

/-!
# The elements of values

Lists, tuples, texts and dictionaries have elements, and so have documents and step sequences, whose
elements are those of one of their fields. What has elements can be gone through while it changes: a
list is looked at again at each place, and a dictionary must keep its size and may not get more
keys than it had.

Two values count as the same if they are the same object, or if they are plain data or containers
with the same contents.

## Main definitions

* `GuardedWalk.World.length`, `isTrue` — the number of elements of a value, and its truth value.
* `GuardedWalk.World.iterable`, `elements` — what is gone through, and its elements at present.
* `GuardedWalk.World.Cursor`, `begin`, `advance` — going through elements one by one.
* `GuardedWalk.World.same`, `equal` — whether two values count as the same, and whether they are
  equal.
* `GuardedWalk.World.keyProblem?` — why a value cannot be a key.

## Main results

* `GuardedWalk.World.advance_list`, `advance_tuple` — a list yields the element that it has at the
  place at present, a tuple the one it always has there.
-/

set_option autoImplicit false

namespace GuardedWalk

namespace World

variable {ε : Type}

/-- The attribute of a node, none if it is not set. -/
def fieldOf (w : World ε) (r : Ref .node) (field : String) : Value :=
  (w.nodes.get r).attributes.value field

/-- The field that holds the elements of a node. -/
def elementField? (w : World ε) (r : Ref .node) : Option String :=
  match (w.nodes.get r).cls with
  | .document .features => some "features"
  | .document .steps => some "steps"
  | _ => none

/-- The field whose length is that of a node. -/
def lengthField? (w : World ε) (r : Ref .node) : Option String :=
  match (w.nodes.get r).cls with
  | .document .table | .document .outlineTable => some "rows"
  | _ => w.elementField? r

/-- The number of elements of a value, at most `fuel` nodes deep. -/
def lengthWithin (w : World ε) : Nat → Value → Except Failure Nat
  | _, .text s => .ok s.length
  | _, .list r => .ok (w.lists.get r).size
  | _, .tuple r => .ok (w.tuples.get r).size
  | _, .dictionary r => .ok (w.dictionaries.get r).size
  | fuel, .node r =>
    match w.lengthField? r, fuel with
    | some field, fuel + 1 => w.lengthWithin fuel (w.fieldOf r field)
    | some _, 0 => .error .tooDeep
    | none, _ => .error (.noLength (w.typeName (.node r)))
  | _, v => .error (.noLength (w.typeName v))

/-- The number of elements of a value. -/
def length (w : World ε) (v : Value) : Except Failure Nat := w.lengthWithin w.extent v

/-- Whether a value counts as true: what is absent, zero or empty does not. -/
def isTrue (w : World ε) : Value → Except Failure Bool
  | .none => .ok false
  | .bool b => .ok b
  | .int i => .ok (i != 0)
  | .float x => .ok (!x.isZero)
  | .node r =>
    match w.lengthField? r with
    | some _ => do return (← w.length (.node r)) != 0
    | none => .ok true
  | .text s => .ok (!s.isEmpty)
  | .list r => .ok !(w.lists.get r).isEmpty
  | .tuple r => .ok !(w.tuples.get r).isEmpty
  | .dictionary r => .ok ((w.dictionaries.get r).size != 0)
  | _ => .ok true

/-- What is gone through when the elements of a value are visited, at most `fuel` nodes deep. -/
def iterableWithin (w : World ε) : Nat → Value → Except Failure Value
  | _, .list r => .ok (.list r)
  | _, .tuple r => .ok (.tuple r)
  | _, .dictionary r => .ok (.dictionary r)
  | _, .text s => .ok (.text s)
  | fuel, .node r =>
    match w.elementField? r, fuel with
    | some field, fuel + 1 => w.iterableWithin fuel (w.fieldOf r field)
    | some _, 0 => .error .tooDeep
    | none, _ => .error (.notIterable (w.typeName (.node r)))
  | _, v => .error (.notIterable (w.typeName v))

/-- What is gone through when the elements of a value are visited. -/
def iterable (w : World ε) (v : Value) : Except Failure Value := w.iterableWithin w.extent v

/-- The elements that an iterable has at present. -/
def elements (w : World ε) : Value → List Value
  | .list r => w.items r
  | .tuple r => w.row r
  | .dictionary r => (w.dictionaries.get r).keys
  | .text s => s.toList.map fun c => .text (String.singleton c)
  | _ => []

/-- The elements of a value. -/
def elementsOf (w : World ε) (v : Value) : Except Failure (List Value) := do
  return w.elements (← w.iterable v)

/-- Whether a value is of a class whose objects have elements. -/
def hasElements (w : World ε) : Value → Bool
  | .list _ | .tuple _ | .dictionary _ | .text _ => true
  | .node r => (w.elementField? r).isSome
  | _ => false

/-- The elements of a value as arguments of a call. -/
def spread (w : World ε) (v : Value) : Except Failure (List Value) :=
  if w.hasElements v then w.elementsOf v else .error (.notSpreadable (w.typeName v))

/-- How far something has been gone through. -/
inductive Cursor where
  /-- A list, from a place on. -/
  | list (r : Ref .list) (place : Nat)
  /-- A tuple, from a place on. -/
  | tuple (r : Ref .tuple) (place : Nat)
  /-- A dictionary, from a place on; it had some number of keys at the beginning, and some of those
  are left. -/
  | dictionary (r : Ref .dictionary) (place size left : Nat)
  /-- What is left of a text. -/
  | text (rest : List Char)
deriving DecidableEq, Repr

/-- The beginning of the elements of a value. -/
def begin (w : World ε) (v : Value) : Except Failure Cursor := do
  match ← w.iterable v with
  | .list r => return .list r 0
  | .tuple r => return .tuple r 0
  | .dictionary r =>
    let size := (w.dictionaries.get r).size
    return .dictionary r 0 size size
  | .text s => return .text s.toList
  | _ => return .text []

/-- The next element, with the cursor behind it. A dictionary must have kept its size, and has no
more elements than it had at the beginning. -/
def advance (w : World ε) : Cursor → Except Failure (Option (Value × Cursor))
  | .list r place => .ok ((w.lists.get r)[place]?.map fun x => (x, .list r (place + 1)))
  | .tuple r place => .ok ((w.tuples.get r)[place]?.map fun x => (x, .tuple r (place + 1)))
  | .dictionary r place size left =>
    let d := w.dictionaries.get r
    if d.size ≠ size then .error .dictionaryChanged
    else
      match d.next? place, left with
      | none, _ => .ok none
      | some _, 0 => .error .keysChanged
      | some (place, p), left + 1 => .ok (some (p.1, .dictionary r (place + 1) size left))
  | .text [] => .ok none
  | .text (c :: rest) => .ok (some (.text (String.singleton c), .text rest))

/-- Whether attributes have values that count as the same under some names. -/
def sameFields (same : Value → Value → Bool) (names : List String) (a b : Attributes) : Bool :=
  names.all fun name => same (a.value name) (b.value name)

/-- The attributes by which sessions are compared. -/
def sessionNames : List String :=
  [Session.threadField, Session.threadNameField, Session.startedField, Session.tableField,
   Session.closedField]

/-- Whether two values count as the same, at most `fuel` containers deep: containers do if what they
contain does, and so do configurations and sessions; methods do if they are the same method of one
object. -/
def sameWithin (w : World ε) : Nat → Value → Value → Bool
  | fuel, u, v =>
    u = v ||
    match u, v, fuel with
    | .list r, .list r', fuel + 1 =>
      let a := w.items r
      let b := w.items r'
      a.length = b.length && (a.zip b).all fun p => w.sameWithin fuel p.1 p.2
    | .tuple r, .tuple r', fuel + 1 =>
      let a := w.row r
      let b := w.row r'
      a.length = b.length && (a.zip b).all fun p => w.sameWithin fuel p.1 p.2
    | .dictionary r, .dictionary r', fuel + 1 =>
      let a := w.dictionaries.get r
      let b := w.dictionaries.get r'
      a.size = b.size && a.pairs.all fun p =>
        (b.find? (w.sameWithin fuel) p.1).any fun x => w.sameWithin fuel p.2 x
    | .config r, .config r', fuel + 1 =>
      sameFields (w.sameWithin fuel) Config.settingNames (w.configs.get r).attributes
        (w.configs.get r').attributes
    | .session r, .session r', fuel + 1 =>
      sameFields (w.sameWithin fuel) sessionNames (w.sessions.get r).attributes
        (w.sessions.get r').attributes
    | .method r, .method r', _ =>
      let a := w.methods.get r
      let b := w.methods.get r'
      a.self = b.self && a.message = b.message
    | u, v, _ => u.same v

/-- Whether two values count as the same. -/
def same (w : World ε) (u v : Value) : Bool := u = v || w.sameWithin w.extent u v

/-- Whether two values are equal; what is not a number is not even equal to itself. -/
def equal (w : World ε) (u v : Value) : Bool :=
  match u, v with
  | .nan _, _ | _, .nan _ => false
  | u, v => w.same u v

/-- Why a value cannot be a key, if it cannot; at most `fuel` tuples deep. -/
def keyProblemWithin (w : World ε) : Nat → Value → Option Failure
  | fuel, v =>
    match v, fuel with
    | .list _, _ | .dictionary _, _ | .config _, _ | .session _, _ | .parked _, _ =>
      some (.unhashable (w.typeName v))
    | .tuple r, fuel + 1 => (w.row r).findSome? (w.keyProblemWithin fuel)
    | _, _ => none

/-- Why a value cannot be a key, if it cannot. -/
def keyProblem? (w : World ε) (v : Value) : Option Failure := w.keyProblemWithin w.extent v

/-- A value as a key. -/
def asKey (w : World ε) (v : Value) : Except Failure Value :=
  match w.keyProblem? v with
  | some f => .error f
  | none => .ok v

/-- A list yields the element that it has at the place of the cursor at present. -/
theorem advance_list (w : World ε) (r : Ref .list) (place : Nat) :
    w.advance (.list r place) =
      .ok ((w.items r)[place]?.map fun x => (x, .list r (place + 1))) := by
  simp [advance, items]

/-- A tuple yields the element at the place of the cursor. -/
theorem advance_tuple (w : World ε) (r : Ref .tuple) (place : Nat) :
    w.advance (.tuple r place) =
      .ok ((w.row r)[place]?.map fun x => (x, .tuple r (place + 1))) := by
  simp [advance, row]

/-- A value counts as the same as itself. -/
@[simp] theorem same_refl (w : World ε) (v : Value) : w.same v v = true := by
  simp [same]

end World

end GuardedWalk
