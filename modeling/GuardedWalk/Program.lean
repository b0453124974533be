import GuardedWalk.World.Act

/-!
# Programs of a thread

What a thread does is a program: a tree of atomic steps on the world, calls whose answers the rest
of the program is given, waits, and starts of further threads. What a call stands for is not part
of the program; it is looked up when the program runs, so programs are finite trees although walks
call themselves.

## Main definitions

* `GuardedWalk.Program` — the programs that end with a result.
* `GuardedWalk.Routine` — the programs that end with a result or a failure.
* `GuardedWalk.Routine.invoke`, `act`, `read`, `change` — the steps of a routine.
* `GuardedWalk.Routine.outcome` — the result or the failure of a routine, as a result.

## Main results

* `GuardedWalk.Program.bind_assoc`, `bind_done` — the laws of sequencing.
-/

set_option autoImplicit false

namespace GuardedWalk

/-- A program over worlds with foreign state `ε` and calls `κ` that ends with an `α`. -/
inductive Program (ε κ α : Type) : Type 1 where
  /-- The program ends. -/
  | done (a : α)
  /-- One step changes the world and finds something out; the program goes on as that tells. -/
  | step {β : Type} (change : World ε → β × World ε) (next : β → Program ε κ α)
  /-- Something is called. -/
  | call (c : κ) (next : Outcome → Program ε κ α)
  /-- The thread waits until a condition holds or a point of time is reached, and learns which. -/
  | wait (ready : World ε → Bool) (until? : Option Nat) (next : Bool → Program ε κ α)
  /-- A thread starts, with one call to make. -/
  | start (t : Thread) (c : κ) (next : Program ε κ α)

namespace Program

variable {ε κ α β γ : Type}

/-- One program after another. -/
def bind : Program ε κ α → (α → Program ε κ β) → Program ε κ β
  | done a, f => f a
  | step change next, f => step change fun b => (next b).bind f
  | call c next, f => call c fun o => (next o).bind f
  | wait ready until? next, f => wait ready until? fun b => (next b).bind f
  | start t c next, f => start t c (next.bind f)

instance : Monad (Program ε κ) where
  pure := done
  bind := bind

@[simp] theorem bind_done (p : Program ε κ α) : p.bind done = p := by
  induction p with
  | done a => rfl
  | step change next ih => simp [bind, ih]
  | call c next ih => simp [bind, ih]
  | wait ready until? next ih => simp [bind, ih]
  | start t c next ih => simp [bind, ih]

theorem bind_assoc (p : Program ε κ α) (f : α → Program ε κ β) (g : β → Program ε κ γ) :
    (p.bind f).bind g = p.bind fun a => (f a).bind g := by
  induction p with
  | done a => rfl
  | step change next ih => simp [bind, ih]
  | call c next ih => simp [bind, ih]
  | wait ready until? next ih => simp [bind, ih]
  | start t c next ih => simp [bind, ih]

instance : LawfulMonad (Program ε κ) :=
  LawfulMonad.mk' (Program ε κ)
    (fun p => bind_done p)
    (fun _ _ => rfl)
    (fun p f g => bind_assoc p f g)

end Program

/-- A program that ends with a result or a failure. -/
abbrev Routine (ε κ α : Type) : Type 1 := ExceptT Failure (Program ε κ) α

namespace Routine

variable {ε κ α : Type}

/-- A step that changes the world and ends as the function tells. -/
def atomically (f : World ε → Except Failure α × World ε) : Routine ε κ α :=
  Program.step f Program.done

/-- An act as a step. -/
def act (a : Act ε α) : Routine ε κ α := atomically a.run

/-- A step that looks at the world. -/
def read (f : World ε → α) : Routine ε κ α := atomically fun w => (.ok (f w), w)

/-- A step that looks at the world and may fail. -/
def examine (f : World ε → Except Failure α) : Routine ε κ α := atomically fun w => (f w, w)

/-- A step that changes the world. -/
def change (f : World ε → World ε) : Routine ε κ Unit := atomically fun w => (.ok (), f w)

/-- A step that changes the world and ends with a result. -/
def update (f : World ε → α × World ε) : Routine ε κ α :=
  atomically fun w =>
    let (a, w) := f w
    (.ok a, w)

/-- Calls something. -/
def invoke (c : κ) : Routine ε κ Value := .call c fun o => .done o

/-- Waits until a condition holds or a point of time is reached; says whether it holds. -/
def await (ready : World ε → Bool) (until? : Option Nat) : Routine ε κ Bool :=
  .wait ready until? fun b => .done (.ok b)

/-- Starts a thread. -/
def launch (t : Thread) (c : κ) : Routine ε κ Unit := .start t c (.done (.ok ()))

/-- The result or the failure of a routine, as a result. -/
def outcome (p : Routine ε κ α) : Routine ε κ (Except Failure α) :=
  Program.bind (α := Except Failure α) p fun o => .done (.ok o)

end Routine

end GuardedWalk
