import GuardedWalk.Message
import GuardedWalk.Number.Decimal
import GuardedWalk.Store

/-!
# Values

Fields of nodes, arguments of notifications and settings of a walker may hold any value: plain
data, or a reference to an object. Two values are the same object exactly when they are equal.

## Main definitions

* `GuardedWalk.TraversalMode` — what to do about foreign traversal.
* `GuardedWalk.Value` — the values.
* `GuardedWalk.Thread` — the threads that run walks.
-/

set_option autoImplicit false

namespace GuardedWalk

/-- How a walker answers attempts to traverse a notified node by anything but a walker. -/
inductive TraversalMode where
  /-- The attempt fails. -/
  | reject
  /-- The calling thread is suspended. -/
  | park
  /-- The attempt is reported. -/
  | record
  /-- A policy of the user decides. -/
  | custom
deriving DecidableEq, Repr, Inhabited

namespace TraversalMode

/-- All modes. -/
def all : List TraversalMode := [reject, park, record, custom]

/-- The name of a mode. -/
def name : TraversalMode → String
  | reject => "REJECT"
  | park => "PARK"
  | record => "RECORD"
  | custom => "CUSTOM"

/-- The word that stands for a mode in texts. -/
def word : TraversalMode → String
  | reject => "reject"
  | park => "park"
  | record => "record"
  | custom => "custom"

/-- The mode of a given name. -/
def ofName? (name : String) : Option TraversalMode := all.find? fun m => m.name == name

/-- The list of modes is complete. -/
theorem mem_all (m : TraversalMode) : m ∈ all := by cases m <;> decide

end TraversalMode

/-- A value: plain data or a reference to an object. -/
inductive Value where
  | none
  | bool (b : Bool)
  | int (i : Int)
  /-- A floating-point number. -/
  | float (x : Binary64)
  /-- What is not a number; each time that it comes up it is another one. -/
  | nan (r : Ref .nan)
  | text (s : String)
  | mode (m : TraversalMode)
  | event (e : Event)
  | list (r : Ref .list)
  | tuple (r : Ref .tuple)
  | dictionary (r : Ref .dictionary)
  | exception (r : Ref .exception)
  | node (r : Ref .node)
  /-- A method of an object, bound to it. -/
  | method (r : Ref .method)
  /-- A method that needs no object. -/
  | function (m : Message)
  /-- The traversal that a node was given when it was made. -/
  | ownAccept (r : Ref .node)
  /-- The wrapper that a guard has installed. -/
  | wrapper (r : Ref .wrapper)
  /-- What a walker does between the notifications of an event, for the arguments of the event. -/
  | block (walker : Ref .walker) (e : Event) (args : Ref .tuple)
  /-- What a token is held with for the duration of a block. -/
  | holding (r : Ref .token)
  /-- A lock. -/
  | lock (r : Ref .lock)
  /-- A lock whose holders can wait for one another; a copy of one shares the threads that wait. -/
  | condition (threads copy : Ref .condition)
  /-- A call that a policy has suspended. -/
  | parked (r : Ref .parked)
  | config (r : Ref .config)
  | policy (r : Ref .policy)
  | token (r : Ref .token)
  | session (r : Ref .session)
  | guard (r : Ref .guard)
  | adapter (r : Ref .adapter)
  | walker (r : Ref .walker)
  | observer (r : Ref .observer)
  | visitor (r : Ref .visitor)
deriving DecidableEq, Repr

instance : Inhabited Value := ⟨.none⟩

namespace Value

/-- The number that a value compares as: whole numbers and truth values by their value. -/
inductive Number where
  | whole (i : Int)
  | float (x : Binary64)

/-- The number that a value stands for in arithmetic, if it does. -/
def number? : Value → Option Number
  | bool b => some (.whole (if b then 1 else 0))
  | int i => some (.whole i)
  | float x => some (.float x)
  | nan _ => some (.float .nan)
  | _ => Option.none

/-- Whether a number is below zero. -/
def Number.isNegative : Number → Bool
  | whole i => decide (i < 0)
  | float x => x.isNegative

/-- Whether a number is above zero. -/
def Number.isPositive : Number → Bool
  | whole i => decide (0 < i)
  | float x => x.isPositive

/-- A finite number as a fraction. -/
def Number.fraction? : Number → Option (Int × Nat)
  | whole i => some (i, 1)
  | float (.finite negative m e) =>
    let n : Int := m * Nat.pow 2 e.toNat
    some (if negative then -n else n, Nat.pow 2 (-e).toNat)
  | float _ => Option.none

/-- Where a number stands among the infinities: below, between or above them. -/
def Number.rank : Number → Int
  | float (.infinite negative) => if negative then -1 else 1
  | _ => 0

/-- How two numbers compare; what is not a number compares with nothing. -/
def Number.compare (a b : Number) : Option Ordering :=
  match a, b with
  | float .nan, _ | _, float .nan => Option.none
  | a, b =>
    match a.fraction?, b.fraction? with
    | some (n, d), some (n', d') => some (Ord.compare (n * d') (n' * d))
    | _, _ => some (Ord.compare a.rank b.rank)

/-- Whether a value can be called. -/
def isCallable : Value → Bool
  | method _ | function _ | ownAccept _ | wrapper _ | block .. => true
  | _ => false

/-- Whether two numbers stand for the same; what is not a number stands for nothing. -/
def Number.same (a b : Number) : Bool := a.compare b = some .eq

/-- Whether a value that is no container counts as another one: numbers do by what they stand
for. -/
def same (u v : Value) : Bool :=
  u = v ||
    match u.number?, v.number? with
    | some a, some b => a.same b
    | _, _ => false

/-- Whether two values stand for numbers and for the same one. -/
def sameNumber (u v : Value) : Bool :=
  match u.number?, v.number? with
  | some a, some b => a.same b
  | _, _ => false

/-- A number one greater or one less, as it is counted: whole numbers are exact, others are rounded
to the nearest number of their format. -/
def Number.shifted (n : Number) (step : Int) : Number :=
  match n with
  | whole i => .whole (i + step)
  | float x =>
    match (float x).fraction? with
    | some (num, den) =>
      let sum := num + step * den
      .float (Binary64.ofRatio (decide (sum < 0)) sum.natAbs den)
    | Option.none => .float x

end Value

/-- A thread. -/
structure Thread where
  /-- What tells the thread apart from all others. -/
  id : Nat
  /-- The name of the thread in texts. -/
  name : String
deriving DecidableEq, Repr, Inhabited

namespace Thread

/-- The thread on which everything starts. -/
def main : Thread := ⟨0, "MainThread"⟩

/-- The number below which no thread is numbered. -/
def firstNumber : Nat := 140000000000000

/-- The number under which a thread is known. -/
def number (t : Thread) : Value := .int (firstNumber + t.id : Nat)

/-- What tells the thread of a number apart, if the value is such a number. -/
def idOf? : Value → Option Nat
  | .int i => if (firstNumber : Int) ≤ i then some (i.toNat - firstNumber) else none
  | _ => none

@[simp] theorem idOf?_number (t : Thread) : idOf? t.number = some t.id := by
  simp [idOf?, number]
  omega

end Thread

end GuardedWalk
