import GuardedWalk.Call
import GuardedWalk.Guard
import GuardedWalk.Machine

/-!
# Programs among others

A program of a walk runs among others who change the world between its steps, and some of its calls
are answered by others. Here it is said how a program runs in given surroundings. A traversal of a
guarded node is looked up and the guard that answers for the node is read without anything happening
in between; apart from that the world may change before any step.

## Main definitions

* `GuardedWalk.Surroundings` — what others do, and what calls stand for.
* `GuardedWalk.Moment` — the world, the calls so far, and whether others may act.
* `GuardedWalk.Surroundings.Runs` — a program runs from one moment to another and ends with a
  result.
* `GuardedWalk.Surroundings.Comes` — a run comes to a call.
* `GuardedWalk.Surroundings.Yields` — a program runs to an end at which something holds, and a rule
  holds of all calls on the way.
* `GuardedWalk.Machine.Reaches` — a machine comes from one state to another.
* `GuardedWalk.Surroundings.alone` — no others at all.

## Main results

* `GuardedWalk.Surroundings.Runs.unique` — a program runs in one way only.
* `GuardedWalk.Surroundings.Runs.bind`, `Yields.bind` — one program after another.
* `GuardedWalk.Surroundings.Runs.reaches` — what runs without others runs so on a machine.
-/

set_option autoImplicit false

namespace GuardedWalk

/-- Whether others may act before the next step. -/
inductive Window where
  /-- They may. -/
  | open
  /-- They may, and a node is about to be asked for its traversal. -/
  | entering (r : Ref .node)
  /-- They may not: the node was found guarded, and its guard is about to be asked. -/
  | joined
deriving DecidableEq, Repr

/-- A point of a run. -/
structure Moment (ε κ : Type) where
  /-- The world. -/
  world : World ε
  /-- How many steps and calls there have been. -/
  tick : Nat
  /-- Whether others may act before the next step. -/
  window : Window
  /-- The calls so far. -/
  calls : List (Call κ)

/-- What others do, and what calls stand for. -/
structure Surroundings (ε κ : Type) where
  /-- What a call stands for; none if it is answered by others. -/
  body : Call κ → Option (Program ε (Call κ) Outcome)
  /-- What others make of the world before a step. -/
  move : Moment ε κ → World ε
  /-- How others answer a call, and what they make of the world until then. -/
  reply : Moment ε κ → Call κ → Outcome × World ε

namespace Window

/-- The window after a call has been made. -/
def ofCall {κ : Type} : Call κ → Window
  | .send (.node r) .accept _ => entering r
  | _ => .open

/-- The window after a step that has left a world. -/
def next {ε : Type} (w : World ε) : Window → Window
  | .open => .open
  | entering r => if w.isGuarded (.node r) then joined else .open
  | joined => joined

end Window

namespace Moment

variable {ε κ : Type}

/-- The beginning of a run. -/
def start (w : World ε) : Moment ε κ := ⟨w, 0, .open, []⟩

/-- After a step that has left a world. -/
def stepped (σ : Moment ε κ) (w : World ε) : Moment ε κ :=
  { σ with world := w, tick := σ.tick + 1, window := σ.window.next w }

/-- After a call has been made. -/
def calling (σ : Moment ε κ) (c : Call κ) : Moment ε κ :=
  { σ with tick := σ.tick + 1, window := .ofCall c, calls := σ.calls ++ [c] }

/-- After a call has been answered. -/
def returned (σ : Moment ε κ) : Moment ε κ := { σ with window := .open }

/-- After a call that others have answered. -/
def answered (σ : Moment ε κ) (c : Call κ) (w : World ε) : Moment ε κ :=
  { world := w, tick := σ.tick + 1, window := .open, calls := σ.calls ++ [c] }

end Moment

namespace Surroundings

variable {ε κ α β : Type} {S : Surroundings ε κ}

/-- The world that a step finds. -/
def before (S : Surroundings ε κ) (σ : Moment ε κ) : World ε :=
  if σ.window = .joined then σ.world else S.move σ

/-- A program runs from one moment to another and ends with a result. Programs that wait or start
threads do not run in this sense. -/
inductive Runs (S : Surroundings ε κ) :
    {α : Type} → Program ε (Call κ) α → Moment ε κ → α → Moment ε κ → Prop where
  /-- The program has ended. -/
  | done {α : Type} (a : α) (σ : Moment ε κ) : Runs S (.done a) σ a σ
  /-- A step, after others may have acted. -/
  | step {α β : Type} {change : World ε → β × World ε} {next : β → Program ε (Call κ) α}
      {σ σ' : Moment ε κ} {a : α}
      (h : Runs S (next (change (S.before σ)).1) (σ.stepped (change (S.before σ)).2) a σ') :
    Runs S (.step change next) σ a σ'
  /-- A call whose meaning is known. -/
  | call {α : Type} {c : Call κ} {next : Outcome → Program ε (Call κ) α}
      {p : Program ε (Call κ) Outcome} {σ σ₁ σ' : Moment ε κ} {o : Outcome} {a : α}
      (hc : S.body c = some p) (hp : Runs S p (σ.calling c) o σ₁)
      (h : Runs S (next o) σ₁.returned a σ') : Runs S (.call c next) σ a σ'
  /-- A call that others answer. -/
  | left {α : Type} {c : Call κ} {next : Outcome → Program ε (Call κ) α} {σ σ' : Moment ε κ}
      {a : α} (hc : S.body c = none)
      (h : Runs S (next (S.reply σ c).1) (σ.answered c (S.reply σ c).2) a σ') :
    Runs S (.call c next) σ a σ'

/-- A program runs in one way only. -/
theorem Runs.unique {p : Program ε (Call κ) α} {σ σ₁ σ₂ : Moment ε κ} {a₁ a₂ : α}
    (h₁ : S.Runs p σ a₁ σ₁) (h₂ : S.Runs p σ a₂ σ₂) : a₁ = a₂ ∧ σ₁ = σ₂ := by
  induction h₁ generalizing σ₂ with
  | done a σ =>
    cases h₂
    exact ⟨rfl, rfl⟩
  | step h ih =>
    cases h₂ with
    | step h' => exact ih h'
  | call hc hp h ihp ih =>
    cases h₂ with
    | call hc' hp' h' =>
      obtain rfl := Option.some.inj (hc.symm.trans hc')
      obtain ⟨rfl, rfl⟩ := ihp hp'
      exact ih h'
    | left hc' h' => simp [hc] at hc'
  | left hc h ih =>
    cases h₂ with
    | call hc' hp' h' => simp [hc] at hc'
    | left hc' h' => exact ih h'

/-- One program after another. -/
theorem Runs.bind {p : Program ε (Call κ) α} {f : α → Program ε (Call κ) β}
    {σ σ₁ σ₂ : Moment ε κ} {a : α} {b : β} (h : S.Runs p σ a σ₁) (hf : S.Runs (f a) σ₁ b σ₂) :
    S.Runs (p.bind f) σ b σ₂ := by
  induction h with
  | done a σ => exact hf
  | step h ih => exact .step (ih hf)
  | call hc hp h ihp ih => exact .call hc hp (ih hf)
  | left hc h ih => exact .left hc (ih hf)

/-! ## The calls of a run -/

/-- A run of a program comes to a call, at a moment at which the call is about to be made. -/
inductive Comes (S : Surroundings ε κ) :
    {α : Type} → Program ε (Call κ) α → Moment ε κ → Call κ → Moment ε κ → Prop where
  /-- After a step. -/
  | step {α β : Type} {change : World ε → β × World ε} {next : β → Program ε (Call κ) α}
      {σ σ' : Moment ε κ} {c : Call κ}
      (h : Comes S (next (change (S.before σ)).1) (σ.stepped (change (S.before σ)).2) c σ') :
    Comes S (.step change next) σ c σ'
  /-- The program makes the call. -/
  | here {α : Type} {c : Call κ} {next : Outcome → Program ε (Call κ) α} {σ : Moment ε κ} :
    Comes S (.call c next) σ c σ
  /-- The call is made while an earlier one is answered. -/
  | inside {α : Type} {c c' : Call κ} {next : Outcome → Program ε (Call κ) α}
      {p : Program ε (Call κ) Outcome} {σ σ' : Moment ε κ} (hc : S.body c = some p)
      (h : Comes S p (σ.calling c) c' σ') : Comes S (.call c next) σ c' σ'
  /-- The call is made after an earlier one has been answered. -/
  | later {α : Type} {c c' : Call κ} {next : Outcome → Program ε (Call κ) α}
      {p : Program ε (Call κ) Outcome} {σ σ₁ σ' : Moment ε κ} {o : Outcome}
      (hc : S.body c = some p) (hp : Runs S p (σ.calling c) o σ₁)
      (h : Comes S (next o) σ₁.returned c' σ') : Comes S (.call c next) σ c' σ'
  /-- The call is made after others have answered an earlier one. -/
  | after {α : Type} {c c' : Call κ} {next : Outcome → Program ε (Call κ) α}
      {σ σ' : Moment ε κ} (hc : S.body c = none)
      (h : Comes S (next (S.reply σ c).1) (σ.answered c (S.reply σ c).2) c' σ') :
    Comes S (.call c next) σ c' σ'

/-- What a run comes to in two programs, one after the other. -/
theorem Runs.comes_bind {p : Program ε (Call κ) α} {f : α → Program ε (Call κ) β}
    {σ σ₁ σ' : Moment ε κ} {a : α} {c : Call κ} (h : S.Runs p σ a σ₁)
    (hc : S.Comes (p.bind f) σ c σ') : S.Comes p σ c σ' ∨ S.Comes (f a) σ₁ c σ' := by
  induction h with
  | done a σ => exact .inr hc
  | step h ih =>
    cases hc with
    | step hc => exact (ih hc).imp .step id
  | call hb hp h _ ih =>
    cases hc with
    | here => exact .inl .here
    | inside hb' hc => exact .inl (.inside hb' hc)
    | later hb' hp' hc =>
      obtain rfl := Option.some.inj (hb.symm.trans hb')
      obtain ⟨rfl, rfl⟩ := hp.unique hp'
      exact (ih hc).imp (.later hb hp) id
    | after hb' hc => simp [hb] at hb'
  | left hb h ih =>
    cases hc with
    | here => exact .inl .here
    | inside hb' hc => simp [hb] at hb'
    | later hb' hp' hc => simp [hb] at hb'
    | after hb' hc => exact (ih hc).imp (.after hb) id

/-- Every call that is made in a run is one that the run has come to. -/
theorem Runs.calls {p : Program ε (Call κ) α} {σ σ' : Moment ε κ} {a : α} (h : S.Runs p σ a σ') :
    ∀ c ∈ σ'.calls, c ∈ σ.calls ∨ ∃ σ₁, S.Comes p σ c σ₁ := by
  induction h with
  | done a σ => exact fun c hc => .inl hc
  | step h ih =>
    intro c hc
    exact (ih c hc).imp id fun ⟨σ₁, hσ₁⟩ => ⟨σ₁, .step hσ₁⟩
  | call hb hp h ihp ih =>
    intro c' hc'
    rcases ih c' hc' with hc | ⟨σ₁, hσ₁⟩
    · rcases ihp c' hc with hc | ⟨σ₁, hσ₁⟩
      · rcases List.mem_append.1 hc with hc | hc
        · exact .inl hc
        · obtain rfl := List.mem_singleton.1 hc
          exact .inr ⟨_, .here⟩
      · exact .inr ⟨σ₁, .inside hb hσ₁⟩
    · exact .inr ⟨σ₁, .later hb hp hσ₁⟩
  | left hb h ih =>
    intro c' hc'
    rcases ih c' hc' with hc | ⟨σ₁, hσ₁⟩
    · rcases List.mem_append.1 hc with hc | hc
      · exact .inl hc
      · obtain rfl := List.mem_singleton.1 hc
        exact .inr ⟨_, .here⟩
    · exact .inr ⟨σ₁, .after hb hσ₁⟩

/-! ## Runs that end well -/

/-- What is to hold of every call, at the moment at which it is about to be made. -/
abbrev Rule (ε κ : Type) : Type := Call κ → Moment ε κ → Prop

/-- The rule that asks nothing. -/
def Rule.free (ε κ : Type) : Rule ε κ := fun _ _ => True

/-- A routine runs to an end at which something holds, and a rule holds of all calls on the way. -/
def Yields (S : Surroundings ε κ) (R : Rule ε κ) (σ : Moment ε κ) (p : Routine ε (Call κ) α)
    (Q : Except Failure α → Moment ε κ → Prop) : Prop :=
  ∃ r σ', @Runs ε κ S (Except Failure α) p σ r σ' ∧
    (∀ c σ₁, @Comes ε κ S (Except Failure α) p σ c σ₁ → R c σ₁) ∧ Q r σ'

namespace Yields

variable {R : Rule ε κ} {σ : Moment ε κ} {p : Routine ε (Call κ) α}
  {f : α → Routine ε (Call κ) β}

theorem mono {Q Q' : Except Failure α → Moment ε κ → Prop} (h : S.Yields R σ p Q)
    (hQ : ∀ r σ', Q r σ' → Q' r σ') : S.Yields R σ p Q' := by
  obtain ⟨r, σ', hr, hrule, hq⟩ := h
  exact ⟨r, σ', hr, hrule, hQ r σ' hq⟩

/-- One routine after another: a failure of the first one ends both. -/
theorem bind {Q : Except Failure β → Moment ε κ → Prop}
    (h : S.Yields R σ p fun r σ' =>
      match r with
      | .ok a => S.Yields R σ' (f a) Q
      | .error g => Q (.error g) σ') : S.Yields R σ (p >>= f) Q := by
  obtain ⟨r, σ₁, hr, hrule, hq⟩ := h
  cases r with
  | ok a =>
    obtain ⟨b, σ₂, hb, hrule', hq⟩ := hq
    exact ⟨b, σ₂, hr.bind hb, fun c σ' hc => (hr.comes_bind hc).elim (hrule c σ') (hrule' c σ'), hq⟩
  | error g =>
    refine ⟨.error g, σ₁, hr.bind (.done _ _), fun c σ' hc => ?_, hq⟩
    rcases hr.comes_bind hc with hc | hc
    · exact hrule c σ' hc
    · cases hc

theorem pure {a : α} {Q : Except Failure α → Moment ε κ → Prop} (h : Q (.ok a) σ) :
    S.Yields R σ (Pure.pure a : Routine ε (Call κ) α) Q := by
  refine ⟨.ok a, σ, .done _ _, fun c σ' hc => ?_, h⟩
  cases hc

theorem throw {g : Failure} {Q : Except Failure α → Moment ε κ → Prop} (h : Q (.error g) σ) :
    S.Yields R σ (MonadExcept.throw g : Routine ε (Call κ) α) Q := by
  refine ⟨.error g, σ, .done _ _, fun c σ' hc => ?_, h⟩
  cases hc

theorem atomically {change : World ε → Except Failure α × World ε}
    {Q : Except Failure α → Moment ε κ → Prop}
    (h : Q (change (S.before σ)).1 (σ.stepped (change (S.before σ)).2)) :
    S.Yields R σ (Routine.atomically change) Q := by
  refine ⟨_, _, .step (.done _ _), fun c σ' hc => ?_, h⟩
  cases hc with
  | step hc => cases hc

theorem invoke {c : Call κ} {q : Program ε (Call κ) Outcome} (hc : S.body c = some q)
    (hrule : R c σ) {Q : Outcome → Moment ε κ → Prop}
    (h : @Yields ε κ Value S R (σ.calling c) q fun o σ' => Q o σ'.returned) :
    S.Yields R σ (Routine.invoke c) Q := by
  obtain ⟨o, σ₁, hr, hin, hq⟩ := h
  refine ⟨o, _, .call hc hr (.done _ _), fun c' σ' hc' => ?_, hq⟩
  cases hc' with
  | here => exact hrule
  | inside hb hcome =>
    obtain rfl := Option.some.inj (hc.symm.trans hb)
    exact hin c' σ' hcome
  | later _ _ hcome => cases hcome
  | after hb _ => simp [hc] at hb

theorem left {c : Call κ} (hc : S.body c = none) (hrule : R c σ)
    {Q : Outcome → Moment ε κ → Prop}
    (h : Q (S.reply σ c).1 (σ.answered c (S.reply σ c).2)) :
    S.Yields R σ (Routine.invoke c) Q := by
  refine ⟨_, _, .left hc (.done _ _), fun c' σ' hc' => ?_, h⟩
  cases hc' with
  | here => exact hrule
  | inside hb _ => simp [hc] at hb
  | later hb _ _ => simp [hc] at hb
  | after _ hcome => cases hcome

theorem outcome {Q : Except Failure (Except Failure α) → Moment ε κ → Prop}
    (h : S.Yields R σ p fun r σ' => Q (.ok r) σ') : S.Yields R σ (Routine.outcome p) Q := by
  obtain ⟨r, σ', hr, hrule, hq⟩ := h
  refine ⟨.ok r, σ', Runs.bind hr (.done _ _), fun c σ₁ hc => ?_, hq⟩
  rcases hr.comes_bind hc with hc | hc
  · exact hrule c σ₁ hc
  · cases hc

end Yields

end Surroundings

/-- Foreign code that does nothing; whatever keeps an attribute from being assigned fails so. -/
def Foreign.silent {κ : Type} (f : Failure) : Foreign Unit κ where
  accept _ _ _ _ := Pure.pure .none
  before _ _ _ _ := Pure.pure .none
  after _ _ _ := Pure.pure .none
  handle _ _ _ _ := Pure.pure .none
  method _ _ _ _ := Pure.pure .none
  obstruct _ w := (f, w)
  further _ _ := Pure.pure .none

/-! ## A thread alone -/

/-- A machine comes from one state to another, step by step. -/
inductive Machine.Reaches {ε κ : Type} (body : Thread → κ → Program ε κ Outcome) :
    Machine ε κ → Machine ε κ → Prop where
  /-- Without a step. -/
  | here (m : Machine ε κ) : Reaches body m m
  /-- With a first step. -/
  | step {m m₁ m' : Machine ε κ} (h : m.advance body = .next m₁) (h' : Reaches body m₁ m') :
    Reaches body m m'

theorem Machine.Reaches.trans {ε κ : Type} {body : Thread → κ → Program ε κ Outcome}
    {m m₁ m' : Machine ε κ} (h : Reaches body m m₁) (h' : Reaches body m₁ m') :
    Reaches body m m' := by
  induction h with
  | here m => exact h'
  | step h _ ih => exact .step h (ih h')

namespace Surroundings

variable {ε κ α : Type}

/-- No others at all: every call stands for a program, and nothing changes between two steps. -/
def alone (body : Call κ → Program ε (Call κ) Outcome) : Surroundings ε κ where
  body c := some (body c)
  move σ := σ.world
  reply σ _ := (.ok .none, σ.world)

theorem before_alone (body : Call κ → Program ε (Call κ) Outcome) (σ : Moment ε κ) :
    (alone body).before σ = σ.world := by
  simp [before, alone]

/-- Without others a step finds the world as the last one has left it. -/
theorem alone_step {body : Call κ → Program ε (Call κ) Outcome} {R : Rule ε κ} {σ : Moment ε κ}
    {change : World ε → Except Failure α × World ε} {r : Except Failure α} {w : World ε}
    {Q : Except Failure α → Moment ε κ → Prop} (h : change σ.world = (r, w))
    (hQ : Q r (σ.stepped w)) : (alone body).Yields R σ (Routine.atomically change) Q := by
  refine .atomically ?_
  rw [before_alone, h]
  exact hQ

theorem alone_look {body : Call κ → Program ε (Call κ) Outcome} {R : Rule ε κ} {σ : Moment ε κ}
    {f : World ε → Except Failure α} {r : Except Failure α}
    {Q : Except Failure α → Moment ε κ → Prop} (h : f σ.world = r)
    (hQ : Q r (σ.stepped σ.world)) : (alone body).Yields R σ (Routine.examine f) Q :=
  alone_step (by rw [h]) hQ

/-- What runs without others runs so on a machine, on a thread that goes on with it, whatever that
thread is in the middle of and whatever the other threads wait for. -/
theorem Runs.reaches {body : Thread → Call κ → Program ε (Call κ) Outcome} {t : Thread}
    {p : Program ε (Call κ) α} {σ σ' : Moment ε κ} {a : α}
    (h : (alone (body t)).Runs p σ a σ') (next : α → Program ε (Call κ) Outcome)
    (stack : List (Outcome → Program ε (Call κ) Outcome)) (others : List (Task ε (Call κ))) :
    Machine.Reaches body ⟨σ.world, ⟨t, .running (p.bind next), stack⟩, others⟩
      ⟨σ'.world, ⟨t, .running (next a), stack⟩, others⟩ := by
  induction h generalizing stack with
  | done a σ => exact .here _
  | step h ih =>
    have h' := ih next stack
    rw [before_alone] at h'
    exact .step rfl h'
  | call hc hp h ihp ih =>
    rename_i c rest p σ σ₁ σ₂ o b
    obtain rfl := Option.some.inj hc
    have hin := ihp .done ((fun o => (rest o).bind next) :: stack)
    rw [Program.bind_done] at hin
    exact .step rfl (hin.trans (.step rfl (ih next stack)))
  | left hc h ih => simp [alone] at hc

end Surroundings

end GuardedWalk
