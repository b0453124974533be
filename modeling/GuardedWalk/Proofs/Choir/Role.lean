import GuardedWalk.Proofs.Run.Voice
import GuardedWalk.Proofs.Walk.Audience

/-!
# Roles of those who take part

Somebody who lets observers hear of something goes on by itself up to the next callback and stops
there. Meanwhile others may act. What others may do is what a role relies on, and what is done
between two callbacks is what it guarantees to others. As long as everybody keeps to that, what is
still to come is known from the beginning, whatever a recorder is told by others in between.

## Main definitions

* `GuardedWalk.Role` — what somebody relies on and guarantees, and what observers hear of it.
* `GuardedWalk.Cast.Stands` — the walker is put together, and a recorder has noted something.
* `GuardedWalk.Cast.Foresees` — what is still to come.
* `GuardedWalk.Cast.Awaits`, `Rests` — the same before others act, and where somebody stops.

## Main results

* `GuardedWalk.Cast.Foresees.settles` — somebody goes on until it stops.
* `GuardedWalk.Cast.Rests.bears` — others may act while somebody has stopped.
-/

set_option autoImplicit false

namespace GuardedWalk

variable {ε κ : Type} {D : Ref .list → Prop}

theorem World.Beside.mono {E : Ref .list → Prop} {w w' : World ε} (h : World.Beside E w w')
    (hD : ∀ l, D l → E l) : World.Beside D w w' :=
  { h with lists := fun l hl => h.lists l (hD l hl) }

/-- What somebody who takes part relies on and guarantees, and what observers hear of it. Whatever
is done beside a walk is borne by everybody. -/
structure Role (ε : Type) (D : Ref .list → Prop) where
  thread : Thread
  /-- What others may do meanwhile. -/
  bears : World ε → World ε → Prop
  /-- What is done between two callbacks. -/
  does : World ε → World ε → Prop
  /-- All that observers are told. -/
  tells : List Callback
  /-- How it ends. -/
  ends : Outcome → Prop
  bears_beside : ∀ {w w'}, World.Beside D w w' → bears w w'
  bears_trans : ∀ {w w₁ w'}, bears w w₁ → bears w₁ w' → bears w w'
  does_refl : ∀ w, does w w
  does_trans : ∀ {w w₁ w'}, does w w₁ → does w₁ w' → does w w'

namespace Cast

/-- Whether others hear of a call and answer it. -/
def isOutside (X : Cast) (c : Call κ) : Bool := (X.occasion? c).isSome

/-- The walker is put together as it was made, and a recorder has noted something. -/
structure Stands (X : Cast) (D : Ref .list → Prop) (R : Recorder) (k : Record) (w : World ε) :
    Prop where
  assembled : X.Assembled w
  keeps : R.Keeps D k w

/-- **What is still to come**: all that observers will be told, whatever others do whenever an
observer is told something, and whatever others tell a recorder then. -/
inductive Foresees (X : Cast) (F : Foreign ε κ) (R : Recorder) (ρ : Role ε D) :
    Voice ε κ → World ε → Record → List Callback → Prop where
  /-- It is at its end. -/
  | ended {o : Outcome} {w : World ε} {k : Record} (ho : ρ.ends o) (hw : X.Stands D R k w) :
    Foresees X F R ρ ⟨.done o, []⟩ w k []
  /-- It goes on by a step. -/
  | goes {v v₁ : Voice ε κ} {w w₁ : World ε} {k : Record} {L : List Callback}
      (h : v.advance X.isOutside (Walk.body F ρ.thread) w = some (v₁, w₁)) (hw : ρ.does w w₁)
      (h' : Foresees X F R ρ v₁ w₁ k L) : Foresees X F R ρ v w k L
  /-- Others are to hear of something. -/
  | calls {c : Call κ} {x : Occasion κ} {next : Outcome → Program ε (Call κ) Outcome}
      {stack : List (Outcome → Program ε (Call κ) Outcome)} {w : World ε} {k : Record}
      {L : List Callback} (hx : X.occasion? c = some x) (hw : X.Stands D R k w)
      (h : ∀ u w' (ts : List Told), ρ.bears w w' → X.Stands D R (ts.foldl Record.hear k) w' →
        Foresees X F R ρ ⟨next (.ok u), stack⟩ w' (ts.foldl Record.hear k) L) :
      Foresees X F R ρ ⟨.call c next, stack⟩ w k (x.callback?.toList ++ L)

variable {X : Cast} {F : Foreign ε κ} {R : Recorder} {ρ : Role ε D} {v v' : Voice ε κ}
  {w w' : World ε} {k : Record} {L : List Callback}

/-- What is still to come when others may still do something. -/
def Awaits (X : Cast) (F : Foreign ε κ) (R : Recorder) (ρ : Role ε D) (v : Voice ε κ)
    (w : World ε) (k : Record) (L : List Callback) : Prop :=
  ∀ w' (ts : List Told), ρ.bears w w' → X.Stands D R (ts.foldl Record.hear k) w' →
    X.Foresees F R ρ v w' (ts.foldl Record.hear k) L

/-- Where somebody stops: at its end, or where others are to hear of something. -/
inductive Rests (X : Cast) (F : Foreign ε κ) (R : Recorder) (ρ : Role ε D) :
    Voice ε κ → World ε → Record → List Callback → Prop where
  | ended {o : Outcome} {w : World ε} {k : Record} (ho : ρ.ends o) :
    Rests X F R ρ ⟨.done o, []⟩ w k []
  | calls {c : Call κ} {x : Occasion κ} {next : Outcome → Program ε (Call κ) Outcome}
      {stack : List (Outcome → Program ε (Call κ) Outcome)} {w : World ε} {k : Record}
      {L : List Callback} (hx : X.occasion? c = some x)
      (h : ∀ u, X.Awaits F R ρ ⟨next (.ok u), stack⟩ w k L) :
      Rests X F R ρ ⟨.call c next, stack⟩ w k (x.callback?.toList ++ L)

/-- Others have done nothing yet. -/
theorem Awaits.now (h : X.Awaits F R ρ v w k L) (hw : X.Stands D R k w) :
    X.Foresees F R ρ v w k L := h w [] (ρ.bears_beside (.refl D w)) hw

/-- Others have done something. -/
theorem Awaits.bears (h : X.Awaits F R ρ v w k L) (hw : ρ.bears w w') (ts : List Told) :
    X.Awaits F R ρ v w' (ts.foldl Record.hear k) L := by
  intro w'' ts' hw' hstands
  rw [← List.foldl_append] at hstands ⊢
  exact h w'' (ts ++ ts') (ρ.bears_trans hw hw') hstands

/-- Others may act while somebody has stopped. -/
theorem Rests.bears (h : X.Rests F R ρ v w k L) (hw : ρ.bears w w') (ts : List Told) :
    X.Rests F R ρ v w' (ts.foldl Record.hear k) L := by
  cases h with
  | ended ho => exact .ended ho
  | calls hx h => exact .calls hx fun u => (h u).bears hw ts

/-- Somebody who has stopped at the end ends as it should. -/
theorem Rests.of_done {o : Outcome} (h : X.Rests F R ρ ⟨.done o, []⟩ w k L) :
    ρ.ends o ∧ L = [] := by
  cases h with
  | ended ho => exact ⟨ho, rfl⟩

/-- Somebody who has stopped because others are to hear of something goes on when they have. -/
theorem Rests.of_call {c : Call κ} {x : Occasion κ} {next : Outcome → Program ε (Call κ) Outcome}
    {stack : List (Outcome → Program ε (Call κ) Outcome)}
    (h : X.Rests F R ρ ⟨.call c next, stack⟩ w k L) (hx : X.occasion? c = some x) :
    ∃ L', L = x.callback?.toList ++ L' ∧ ∀ u, X.Awaits F R ρ ⟨next (.ok u), stack⟩ w k L' := by
  cases h with
  | calls hx' h =>
    obtain rfl := Option.some.inj (hx.symm.trans hx')
    exact ⟨_, rfl, h⟩

theorem advance_ended (X : Cast) (F : Foreign ε κ) (t : Thread) (o : Outcome) (w : World ε) :
    (⟨.done o, []⟩ : Voice ε κ).advance X.isOutside (Walk.body F t) w = none := rfl

theorem advance_calls {c : Call κ} {x : Occasion κ} (hx : X.occasion? c = some x) (t : Thread)
    (next : Outcome → Program ε (Call κ) Outcome)
    (stack : List (Outcome → Program ε (Call κ) Outcome)) (w : World ε) :
    (⟨.call c next, stack⟩ : Voice ε κ).advance X.isOutside (Walk.body F t) w = none := by
  simp [Voice.advance, isOutside, hx]

/-- **Somebody goes on until it stops**, and does between two callbacks what it may. -/
theorem Foresees.settles (h : X.Foresees F R ρ v w k L) :
    ∃ v' w', v.Settles X.isOutside (Walk.body F ρ.thread) w v' w' ∧ ρ.does w w' ∧
      X.Stands D R k w' ∧ X.Rests F R ρ v' w' k L := by
  induction h with
  | ended ho hw => exact ⟨_, _, .stops (advance_ended ..), ρ.does_refl _, hw, .ended ho⟩
  | goes h hw _ ih =>
    obtain ⟨v', w', hsettles, hdoes, hstands, hrests⟩ := ih
    exact ⟨v', w', .goes h hsettles, ρ.does_trans hw hdoes, hstands, hrests⟩
  | calls hx hw h _ =>
    exact ⟨_, _, .stops (advance_calls hx ..), ρ.does_refl _, hw, .calls hx h⟩

end Cast

end GuardedWalk
