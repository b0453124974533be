import GuardedWalk.Program

/-!
# Running the programs of threads

Each thread has the program it is in the middle of and, for each call it is inside of, what follows
the call. One thread runs at a time, until it ends or has to wait; then the first thread that can
go on does, the main thread before all others. When every thread waits, time passes until the
first limit of a wait is reached.

## Main definitions

* `GuardedWalk.Task` — a thread with what it still has to do.
* `GuardedWalk.Machine` — the world and the threads.
* `GuardedWalk.Machine.advance` — one step.
* `GuardedWalk.Machine.run` — steps until the main thread ends.
-/

set_option autoImplicit false

namespace GuardedWalk

/-- What a thread is doing. -/
inductive Activity (ε κ : Type) where
  /-- It goes on with a program. -/
  | running (now : Program ε κ Outcome)
  /-- It waits for a condition or a point of time. -/
  | waiting (ready : World ε → Bool) (until? : Option Nat) (next : Bool → Program ε κ Outcome)

/-- A thread with what it still has to do. -/
structure Task (ε κ : Type) where
  /-- The thread. -/
  thread : Thread
  /-- What it is doing. -/
  activity : Activity ε κ
  /-- What follows the calls it is inside of, the innermost first. -/
  stack : List (Outcome → Program ε κ Outcome)

namespace Task

variable {ε κ : Type}

/-- A thread that is about to make a call. -/
def calling (t : Thread) (c : κ) : Task ε κ := ⟨t, .running (.call c .done), []⟩

/-- Whether a thread can go on. -/
def isReady (w : World ε) (t : Task ε κ) : Bool :=
  match t.activity with
  | .running _ => true
  | .waiting ready _ _ => ready w

/-- The point of time at which a thread stops waiting. -/
def until? (t : Task ε κ) : Option Nat :=
  match t.activity with
  | .running _ => none
  | .waiting _ until? _ => until?

/-- The thread after its wait, which ended because of the condition or because of the time. -/
def wake (t : Task ε κ) (held : Bool) : Task ε κ :=
  match t.activity with
  | .running _ => t
  | .waiting _ _ next => { t with activity := .running (next held) }

end Task

/-- The world and the threads, one of which is running. -/
structure Machine (ε κ : Type) where
  /-- The world. -/
  world : World ε
  /-- The running thread. -/
  current : Task ε κ
  /-- All other threads, in the order in which they are asked whether they can go on. -/
  others : List (Task ε κ)

namespace Machine

variable {ε κ : Type}

/-- How a machine goes on. -/
inductive Progress (ε κ : Type) where
  /-- It goes on from a further state. -/
  | next (m : Machine ε κ)
  /-- The main thread has ended. -/
  | finished (world : World ε)
  /-- Every thread waits without limit. -/
  | stuck (world : World ε)

/-- The first task with a property, and the others. -/
def extract {α : Type 1} (p : α → Bool) : List α → Option (α × List α)
  | [] => none
  | a :: rest =>
    if p a then some (a, rest)
    else (extract p rest).map fun (b, others) => (b, a :: others)

/-- The earliest point of time at which a task stops waiting. -/
def earliest (tasks : List (Task ε κ)) : Option Nat :=
  tasks.foldl
    (fun found t =>
      match found, t.until? with
      | some a, some b => some (min a b)
      | found, none => found
      | none, found => found)
    none

/-- Chooses a thread to go on. -/
def schedule (w : World ε) (tasks : List (Task ε κ)) : Progress ε κ :=
  match extract (Task.isReady w) tasks with
  | some (t, others) => .next ⟨w, t.wake true, others⟩
  | none =>
    match earliest tasks with
    | none => .stuck w
    | some time =>
      let w := { w with clock := max w.clock time }
      match extract (fun t => t.until? == some time) tasks with
      | some (t, others) => .next ⟨w, t.wake false, others⟩
      | none => .stuck w

/-- The threads in the order in which they are asked whether they can go on, after one of them has
stopped: the main thread comes first, any other goes to the end. -/
def queue (t : Task ε κ) (others : List (Task ε κ)) : List (Task ε κ) :=
  if t.thread = .main then t :: others else others ++ [t]

/-- Whether the point of time at which a wait ends has been reached. -/
def isOver (w : World ε) : Option Nat → Bool
  | some time => decide (time ≤ w.clock)
  | none => false

/-- One step of the running thread; `body` says what a call stands for on a thread. -/
def advance (body : Thread → κ → Program ε κ Outcome) (m : Machine ε κ) : Progress ε κ :=
  let t := m.current
  match t.activity with
  | .waiting .. => schedule m.world (queue t m.others)
  | .running (.done o) =>
    match t.stack with
    | next :: rest =>
      .next { m with current := { t with activity := .running (next o), stack := rest } }
    | [] => if t.thread = .main then .finished m.world else schedule m.world m.others
  | .running (.step change next) =>
    let (b, world) := change m.world
    .next { m with world, current := { t with activity := .running (next b) } }
  | .running (.call c next) =>
    .next { m with
      current := { t with activity := .running (body t.thread c), stack := next :: t.stack } }
  | .running (.wait ready until? next) =>
    if ready m.world then
      .next { m with current := { t with activity := .running (next true) } }
    else if isOver m.world until? then
      .next { m with current := { t with activity := .running (next false) } }
    else
      schedule m.world (queue { t with activity := .waiting ready until? next } m.others)
  | .running (.start child c next) =>
    .next { m with
      current := { t with activity := .running next }
      others := m.others ++ [.calling child c] }

/-- Steps until the main thread has ended or no thread can go on, at most `fuel` of them. -/
def run (body : Thread → κ → Program ε κ Outcome) : Nat → Machine ε κ → Option (World ε)
  | 0, _ => none
  | fuel + 1, m =>
    match m.advance body with
    | .next m => run body fuel m
    | .finished w => some w
    | .stuck w => some w

/-- More fuel changes nothing once a run has ended. -/
theorem run_add {body : Thread → κ → Program ε κ Outcome} {fuel : Nat} {m : Machine ε κ}
    {w : World ε} (h : m.run body fuel = some w) (more : Nat) :
    m.run body (fuel + more) = some w := by
  induction fuel generalizing m with
  | zero => simp [run] at h
  | succ fuel ih =>
    rw [Nat.succ_add]
    simp only [run] at h ⊢
    cases hm : m.advance body with
    | next m' => rw [hm] at h; exact ih h
    | finished w' => rw [hm] at h; exact h
    | stuck w' => rw [hm] at h; exact h

end Machine

end GuardedWalk
