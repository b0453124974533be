import GuardedWalk.Proofs.World.Frame
import GuardedWalk.Walk

/-!
# A walker and those who call it

Nodes, observers and whoever else shares a walker may call it at any time and on any thread, also
in the middle of what the walker has asked them to do, and they may pass failures on or catch them.
Here the methods of one walker and of its token run as they are, a step of one thread at a time,
while all other code is foreign. Foreign code changes the world as it likes, as long as it keeps its
hands off the walker, its token and the session in flight; it calls the methods of the walker that
are meant for everybody, answers what it is asked with any result or failure, and gets back what its
own calls have come to.

## Main definitions

* `GuardedWalk.Desk` — a walker with its token.
* `GuardedWalk.Desk.answers` — the calls that the walker and its token answer themselves.
* `GuardedWalk.Caller`, `Traffic` — what a thread and what all threads are in the middle of.
* `GuardedWalk.Desk.advance` — a method goes on by one step.
* `GuardedWalk.Desk.Beside` — what foreign code may change.
* `GuardedWalk.Desk.Step`, `Runs` — one step of any thread, and any number of them.
* `GuardedWalk.Traffic.latest` — the outline table that was announced last in a session.

## Design

Whatever the library itself runs on behalf of nodes and observers counts as foreign code here. A
thread that waits may go on at any time, with either answer; what holds of all these runs holds of
those in which it goes on only when it is woken or its time is over.
-/

set_option autoImplicit false

namespace GuardedWalk

variable {ε κ : Type}

/-- A walker with its token, and the threads that call it. -/
structure Desk (ε κ : Type) where
  /-- Foreign code. -/
  foreign : Foreign ε κ
  walker : Ref .walker
  /-- The token of the walker. -/
  token : Ref .token
  /-- The condition on which threads wait for the token. -/
  condition : Ref .condition
  /-- How long a competing thread may wait. -/
  timeout : Value
  /-- The names of the threads. -/
  name : Nat → String

/-- What a thread goes back to. -/
inductive Pending (ε κ : Type) where
  /-- A method has called another one. -/
  | method (next : Outcome → Program ε (Call κ) Outcome)
  /-- A method has asked something of foreign code. -/
  | asked (c : Call κ) (next : Outcome → Program ε (Call κ) Outcome)
  /-- Foreign code has called the walker. -/
  | called

/-- What a thread is in the middle of. -/
structure Caller (ε κ : Type) where
  /-- The method that runs; none if foreign code does. -/
  now : Option (Program ε (Call κ) Outcome)
  /-- What the thread goes back to, the innermost first. -/
  stack : List (Pending ε κ)
  /-- The outline table that all observers have heard of since foreign code last ran. -/
  entering : Option Value

/-- The world, and what all threads are in the middle of. -/
structure Traffic (ε κ : Type) where
  /-- The world. -/
  world : World ε
  /-- What each thread is in the middle of. -/
  callers : Nat → Caller ε κ
  /-- The outline tables that all observers have been told of, each with the session in flight then,
  the latest first. -/
  told : List (Value × Value)

/-- A thread on which foreign code runs that nobody has asked for. -/
def Caller.apart : Caller ε κ := ⟨none, [], none⟩

/-- Whether a message to a walker is meant for everybody. -/
def Message.isPublic : Message → Bool
  | entry _ | cancel => true
  | _ => false

/-- The outline table of a visit whose observers have all been told that it begins. -/
def Call.tableTold? : Call κ → Outcome → Option Value
  | .send _ .before (.event .outlineTable :: args), .ok _ => some (args.headD .none)
  | _, _ => none

namespace Traffic

/-- Another thing that a thread is in the middle of. -/
def put (s : Traffic ε κ) (n : Nat) (c : Caller ε κ) : Traffic ε κ :=
  { s with callers := fun m => if m = n then c else s.callers m }

/-- The session in flight. -/
def session (k : Ref .token) (s : Traffic ε κ) : Value :=
  s.world.ownValue (.token k) Token.sessionField

/-- The outline table of the visit in a session whose observers were all told of it last; none if
there has been no such visit. -/
def latest (told : List (Value × Value)) (session : Value) : Value :=
  ((told.find? fun p => decide (p.1 = session)).map Prod.snd).getD .none

@[simp] theorem put_world (s : Traffic ε κ) (n : Nat) (c : Caller ε κ) :
    (s.put n c).world = s.world := rfl

@[simp] theorem put_told (s : Traffic ε κ) (n : Nat) (c : Caller ε κ) :
    (s.put n c).told = s.told := rfl

@[simp] theorem put_callers_self (s : Traffic ε κ) (n : Nat) (c : Caller ε κ) :
    (s.put n c).callers n = c := by
  simp [put]

theorem put_callers_of_ne (s : Traffic ε κ) {n m : Nat} (c : Caller ε κ) (h : m ≠ n) :
    (s.put n c).callers m = s.callers m := by
  simp [put, h]

theorem put_self (s : Traffic ε κ) (n : Nat) : s.put n (s.callers n) = s := by
  have h : (fun m => if m = n then s.callers n else s.callers m) = s.callers := by
    funext m
    by_cases hm : m = n
    · simp [hm]
    · simp [hm]
  simp [put, h]

end Traffic

namespace Desk

/-- The threads by their numbers. -/
def thread (D : Desk ε κ) (n : Nat) : Thread := ⟨n, D.name n⟩

/-- Whether a call is one that the walker, its token or a session answers. -/
def answers (D : Desk ε κ) : Call κ → Bool
  | .send (.walker i) m _ => i = D.walker && (m.isPublic || m = .visit || m = .broadcast)
  | .send (.token k) m _ =>
    k = D.token && (m = .hold || m = .acquire || m = .release || m = .cancel)
  | .send (.session _) m _ => m = .close
  | .apply (.block i _ _) _ => i = D.walker
  | .await k _ => k = D.token
  | _ => false

/-- The method that runs on a thread goes on by one step. A call of what is not answered here ends
in foreign code, and so does a method that foreign code has called. -/
def advance (D : Desk ε κ) (s : Traffic ε κ) (n : Nat) : Option (Traffic ε κ) :=
  let c := s.callers n
  match c.now, c.stack with
  | some (.done o), .method next :: rest =>
    some (s.put n { c with now := some (next o), stack := rest })
  | some (.done _), .called :: rest => some (s.put n ⟨none, rest, none⟩)
  | some (.step change next), _ =>
    let (b, w) := change s.world
    some { s.put n { c with now := some (next b) } with world := w }
  | some (.call call next), stack =>
    if D.answers call then
      some (s.put n { c with
        now := some (Walk.body D.foreign (D.thread n) call), stack := .method next :: stack })
    else some (s.put n ⟨none, .asked call next :: stack, none⟩)
  | _, _ => none

/-- Foreign code calls the walker on a thread. -/
def entered (D : Desk ε κ) (s : Traffic ε κ) (n : Nat) (m : Message) (args : List Value) :
    Traffic ε κ :=
  s.put n
    ⟨some (Walk.body D.foreign (D.thread n) (.send (.walker D.walker) m args)),
      .called :: (s.callers n).stack, none⟩

/-- Foreign code answers on a thread what it was asked there. -/
def answered (D : Desk ε κ) (s : Traffic ε κ) (n : Nat) (c : Call κ)
    (next : Outcome → Program ε (Call κ) Outcome) (rest : List (Pending ε κ)) (o : Outcome) :
    Traffic ε κ :=
  { s.put n ⟨some (next o), rest, c.tableTold? o⟩ with
    told := ((c.tableTold? o).map fun table => (s.session D.token, table)).toList ++ s.told }

/-- What foreign code may make of the world: what the walker, its token and the session in flight
carry stays, apart from the marks of guards, no method of a session gets hidden, and rows stay as
they were made. -/
structure Beside (D : Desk ε κ) (w w' : World ε) : Prop where
  walker : ∀ name ∉ Node.marks,
    (w'.carried (.walker D.walker)).get? name = (w.carried (.walker D.walker)).get? name
  token : ∀ name ∉ Node.marks,
    (w'.carried (.token D.token)).get? name = (w.carried (.token D.token)).get? name
  session : ∀ r : Ref .session, w.ownValue (.token D.token) Token.sessionField = .session r →
    ∀ name ∉ Node.marks, (w'.carried (.session r)).get? name = (w.carried (.session r)).get? name
  unhidden : ∀ r : Ref .session, r.index < w.sessions.cells.size → w.Unhidden (.session r) →
    w'.Unhidden (.session r)
  sessions : w.sessions.cells.size ≤ w'.sessions.cells.size
  rows : w.tuples.Grows id w'.tuples

/-- One step of any thread. -/
inductive Step (D : Desk ε κ) (s : Traffic ε κ) : Traffic ε κ → Prop where
  /-- A method goes on. -/
  | advance {s' : Traffic ε κ} (n : Nat) (h : D.advance s n = some s') : Step D s s'
  /-- A method goes on after a wait. -/
  | wake (n : Nat) {ready : World ε → Bool} {until? : Option Nat}
      {next : Bool → Program ε (Call κ) Outcome} (held : Bool)
      (h : (s.callers n).now = some (.wait ready until? next)) :
    Step D s (s.put n { s.callers n with now := some (next held) })
  /-- Foreign code changes the world. -/
  | elsewhere (w' : World ε) (h : D.Beside s.world w') : Step D s { s with world := w' }
  /-- Foreign code calls the walker. -/
  | enter (n : Nat) (m : Message) (args : List Value) (hm : m.isPublic = true)
      (h : (s.callers n).now = none) : Step D s (D.entered s n m args)
  /-- Foreign code answers what it was asked. -/
  | answer (n : Nat) {c : Call κ} {next : Outcome → Program ε (Call κ) Outcome}
      {rest : List (Pending ε κ)} (o : Outcome) (h : (s.callers n).now = none)
      (hs : (s.callers n).stack = .asked c next :: rest) :
    Step D s (D.answered s n c next rest o)

/-- Any number of steps. -/
inductive Runs (D : Desk ε κ) : Traffic ε κ → Traffic ε κ → Prop where
  /-- No step. -/
  | refl (s : Traffic ε κ) : Runs D s s
  /-- Steps and one more. -/
  | snoc {s s' s'' : Traffic ε κ} (h : Runs D s s') (hs : Step D s' s'') : Runs D s s''

end Desk

end GuardedWalk
