import GuardedWalk.Copying.Memo
import GuardedWalk.Copying.Shallow

/-!
# Values that are written out and read back

A value is written as a list of instructions for a machine with a stack, which build a copy of it.
Everything is written before anything is built, so what cannot be written is noticed first. Each
object is numbered when it is met, and written by its number where it is met again. The contents of
a list, a dictionary or an object are put into it all at once, after they have all been built; an
exception is made, and a method looked up, as soon as what they are made of has been built.

## Main definitions

* `GuardedWalk.Copying.unwritable?` — why a value cannot be written out.
* `GuardedWalk.Copying.Instruction` — the instructions.
* `GuardedWalk.Copying.writeWithin` — the instructions for a value.
* `GuardedWalk.Copying.build` — what instructions build.
* `GuardedWalk.Copying.written` — a value that is written out and read back.

## Main results

* `GuardedWalk.Copying.writeWithin_shared` — what is shared and can be written is written as it is.
* `GuardedWalk.Copying.writeWithin_unwritable` — what cannot be written is not written.
-/

set_option autoImplicit false

namespace GuardedWalk

namespace Copying

variable {ε : Type}

open Act

/-- Names of classes that are defined in a place. -/
def classesIn : Place → List String
  | .outside =>
    [ObserverClass.duck, .virtual, .both, .plain, .scripted].map ObserverClass.name ++
      [(PolicyBody.custom 0).typeName]
  | .abstractClasses => ["ABC", "ABCMeta"]
  | _ => []

/-- Why something cannot be written out by its name, which leads to something else in its place or
to nothing; what is defined inside of something else has no place. -/
def nameProblem (shown name : String) (place : Place) : Failure :=
  if (name.splitOn ".").contains "<locals>" then .localObject name
  else if (classesIn place).contains name then .misplaced shown name place.name
  else .unfound shown name place.name

/-- Why the class of a value cannot be written out by its name, if it cannot. -/
def classProblem (name : String) (place : Place) : Failure :=
  nameProblem ("<class '" ++ place.name ++ "." ++ name ++ "'>") name place

/-- Why a function cannot be written out by its full name. -/
def functionProblem (name : String) : Failure :=
  nameProblem ("<function " ++ name ++ ">") name .outside

/-- Why a value cannot be written out, if it cannot: its class or, if it is a function, the function
itself is not found under its name. -/
def unwritable? (w : World ε) (v : Value) : Option Failure :=
  match v with
  | .node r =>
    match (w.nodes.get r).cls with
    | .document _ => none
    | .foreign c =>
      some (classProblem c.name (if c.isDocumentNode then .abstractClasses else .outside))
  | .visitor r => some (classProblem (w.visitors.get r).typeName .outside)
  | .wrapper _ | .ownAccept _ | .block .. => some (functionProblem (w.fullName v))
  | .function m =>
    if w.fullName v = Guard.className ++ "." ++ m.name then none
    else some (functionProblem (w.fullName v))
  | _ => none

/-- What is done to build a copy. What is built lies on a stack. -/
inductive Instruction where
  /-- A value that is kept as it is. -/
  | keep (v : Value)
  /-- A new list without elements. -/
  | list
  /-- A new dictionary without pairs. -/
  | dictionary
  /-- A new object of the class of another one. -/
  | object (sample : Value)
  /-- What is on top gets the next number. -/
  | number
  /-- What has a number. -/
  | recall (n : Nat)
  /-- The topmost things go to the end of the list below them. -/
  | append (count : Nat)
  /-- The topmost things, keys and values in turn, go into the dictionary below them. -/
  | put (count : Nat)
  /-- The topmost things become the attributes of the object below them. -/
  | restore (names : List String)
  /-- The topmost things make a tuple. -/
  | tuple (count : Nat)
  /-- An exception is made from the tuple on top. -/
  | exception (cls : ExceptionClass)
  /-- A method is looked up in what is on top. -/
  | method (m : Message)
  /-- The topmost things are removed. -/
  | drop (count : Nat)
deriving DecidableEq, Repr

/-- What writes something and numbers the objects that it meets. -/
abbrev Writing (ε α : Type) : Type := StateT (Memo Nat) (Act ε) α

/-- The next object is numbered. -/
def numberNext (v : Value) : Writing ε (List Instruction) := do
  modify fun m => m.insert v m.size
  return [.number]

/-- The number that an object got meanwhile takes the place of what has been built of it, or else it
is numbered now. -/
def numberOr (v : Value) (built : List Instruction) (count : Nat) (made : List Instruction) :
    Writing ε (List Instruction) := do
  match (← get).find? v with
  | some n => return built ++ [.drop count, .recall n]
  | none => return built ++ made ++ (← numberNext v)

/-- Writes values one after the other. -/
def writeAll (write : Value → Writing ε (List Instruction)) :
    List Value → Writing ε (List Instruction)
  | [] => return []
  | v :: rest => do
    let first ← write v
    return first ++ (← writeAll write rest)

/-- The instructions that put contents into what is below them; none if there are no contents. -/
def putting (count : Nat) (i : Instruction) : List Instruction := if count = 0 then [] else [i]

/-- Writes the attributes of the object on the stack. -/
def writeAttributes (write : Value → Writing ε (List Instruction)) (a : Attributes) :
    Writing ε (List Instruction) := do
  let values ← writeAll write (a.map (·.2))
  return values ++ putting a.length (.restore (a.map (·.1)))

/-- Writes an object; `write` writes what it holds. -/
def writeObject (write : Value → Writing ε (List Instruction)) (v : Value) :
    Writing ε (List Instruction) := do
  match v with
  | .list r =>
    let items ← (see (·.items r) : Act ε _)
    let number ← numberNext v
    let contents ← writeAll write items
    return .list :: number ++ contents ++ putting items.length (.append items.length)
  | .tuple r =>
    let items ← (see (·.row r) : Act ε _)
    if items.isEmpty then return [.tuple 0]
    let contents ← writeAll write items
    numberOr v contents items.length [.tuple items.length]
  | .dictionary r =>
    let pairs ← (see fun w => (w.dictionaries.get r).pairs : Act ε _)
    let number ← numberNext v
    let contents ← writeAll write (pairs.flatMap fun p => [p.1, p.2])
    return .dictionary :: number ++ contents ++ putting pairs.length (.put pairs.length)
  | .exception r =>
    let e ← (see (·.exceptions.get r) : Act ε _)
    let args ← write (.tuple e.args)
    let isNew := ((← get).find? v).isNone
    let made ← numberOr v (args ++ [.exception e.cls]) 1 []
    if isNew then return made ++ (← writeAttributes write e.attributes)
    else return made
  | .method r =>
    let x ← (see (·.methods.get r) : Act ε _)
    let self ← write x.self
    numberOr v (self ++ [.method x.message]) 1 []
  | v =>
    match uncopyable? v with
    | some typeName => throw (.uncopyable typeName)
    | none =>
      let attributes ← (see (handedOn · v) : Act ε _)
      let number ← numberNext v
      return .object v :: number ++ (← writeAttributes write attributes)

/-- The instructions for a value, at most `fuel` objects deep; `begun` are the objects being
written, each with how many were numbered when it was begun. One that is met again before anything
else is numbered would never be done. -/
def writeWithin : Nat → List (Value × Nat) → Value → Writing ε (List Instruction)
  | fuel, begun, v => do
    if let some f := ← (see (unwritable? · v) : Act ε _) then throw f
    if isShared v then return [.keep v]
    match (← get).find? v with
    | some n => return [.recall n]
    | none =>
      let known := (← get).size
      if begun.lookup v = some known then throw .tooDeep
      match fuel with
      | 0 => throw .tooDeep
      | fuel + 1 => writeObject (writeWithin fuel ((v, known) :: begun)) v

/-- What has been built. -/
structure Bench where
  /-- The stack. -/
  stack : List Value
  /-- The numbered things, by their numbers. -/
  numbered : Array Value

namespace Bench

/-- Puts something on the stack. -/
def push (b : Bench) (v : Value) : Bench := { b with stack := v :: b.stack }

/-- The topmost things, the lowest first. -/
def top (b : Bench) (count : Nat) : List Value := (b.stack.take count).reverse

/-- Removes the topmost things. -/
def pop (b : Bench) (count : Nat) : Bench := { b with stack := b.stack.drop count }

/-- What lies on top. -/
def head (b : Bench) : Value := b.stack.headD .none

/-- What has a number. -/
def recalled (b : Bench) (n : Nat) : Value := b.numbered.getD n .none

end Bench

/-- Puts keys and values in turn into a dictionary. -/
def putAll (r : Ref .dictionary) : List Value → Act ε Unit
  | key :: v :: rest => do
    change (·.put r key v)
    putAll r rest
  | _ => return

/-- What follows a list of things into the list or the dictionary below them. -/
def fill (below : Value) (items : List Value) : Act ε Unit :=
  match below with
  | .list r => change fun w => { w with lists := w.lists.modify r (· ++ items.toArray) }
  | .dictionary r => putAll r items
  | _ => return

/-- Carries out an instruction. -/
def carryOut (b : Bench) : Instruction → Act ε Bench
  | .keep (.nan _) => do return b.push (← make (·.newFloat .nan))
  | .keep v => return b.push v
  | .list => do return b.push (← addList [])
  | .dictionary => do return b.push (← addDictionary .empty)
  | .object sample => do return b.push (← blank sample)
  | .number => return { b with numbered := b.numbered.push b.head }
  | .recall n => return b.push (b.recalled n)
  | .append count => do
    fill (b.pop count).head (b.top count)
    return b.pop count
  | .put count => do
    fill (b.pop (2 * count)).head (b.top (2 * count))
    return b.pop (2 * count)
  | .restore names => do
    let rest := b.pop names.length
    restore rest.head (names.zip (b.top names.length))
    return rest
  | .tuple count => do return (b.pop count).push (← addTuple (b.top count))
  | .exception cls => do
    let args ← gather b.head
    return (b.pop 1).push (.exception (← makeException cls args))
  | .method m => do return (b.pop 1).push (← read b.head m.name)
  | .drop count => return b.pop count

/-- What instructions build. -/
def build (instructions : List Instruction) : Act ε Value := do
  return (← instructions.foldlM carryOut ⟨[], #[]⟩).head

/-- A value that is written out and read back. Between two objects that are numbered, those being
written differ, so there are fewer than the square of the extent. -/
def written (v : Value) : Act ε Value := do
  let fuel ← see fun w => w.extent * w.extent
  build (← (writeWithin fuel [] v).run .empty).1

/-- What is shared and can be written is written as it is. -/
theorem writeWithin_shared {v : Value} {w : World ε} (hs : isShared v = true)
    (hu : unwritable? w v = none) (fuel : Nat) (begun : List (Value × Nat)) (m : Memo Nat) :
    ((writeWithin fuel begun v).run m).run w = (.ok ([.keep v], m), w) := by
  unfold writeWithin
  simp [hs, hu]

/-- What cannot be written is not written. -/
theorem writeWithin_unwritable {v : Value} {w : World ε} {f : Failure}
    (hu : unwritable? w v = some f) (fuel : Nat) (begun : List (Value × Nat)) (m : Memo Nat) :
    ((writeWithin fuel begun v).run m).run w = (.error f, w) := by
  unfold writeWithin
  simp [hu] <;> rfl

end Copying

end GuardedWalk
