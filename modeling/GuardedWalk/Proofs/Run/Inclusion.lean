import GuardedWalk.Proofs.Run.Surroundings

/-!
# Routines on the way

A run of a routine goes through others: what its calls stand for, its parts, and the rest of it
after each of them. It comes to whatever they come to.

## Main definitions

* `GuardedWalk.Surroundings.Includes` — a run goes through a routine at a moment.
* `GuardedWalk.Surroundings.Within` — calls that are made in a run, one after the other.

## Main results

* `GuardedWalk.Surroundings.Yields.bind_within` — one routine after another, both on the way of one
  run.
-/

set_option autoImplicit false

namespace GuardedWalk

namespace Surroundings

variable {ε κ α β γ : Type} {S : Surroundings ε κ}

/-! ## What programs come to -/

theorem Comes.bind {p : Program ε (Call κ) α} {σ σ' : Moment ε κ} {c : Call κ}
    (h : S.Comes p σ c σ') (f : α → Program ε (Call κ) β) : S.Comes (p.bind f) σ c σ' := by
  induction h with
  | step h ih => exact .step (ih f)
  | here => exact .here
  | inside hc h ih => exact .inside hc h
  | later hc hp h ih => exact .later hc hp (ih f)
  | after hc h ih => exact .after hc (ih f)

/-- What the second of two programs comes to, both come to. -/
theorem Runs.comes_rest {p : Program ε (Call κ) α} {f : α → Program ε (Call κ) β}
    {σ σ₁ σ' : Moment ε κ} {a : α} {c : Call κ} (h : S.Runs p σ a σ₁)
    (hc : S.Comes (f a) σ₁ c σ') : S.Comes (p.bind f) σ c σ' := by
  induction h with
  | done a σ => exact hc
  | step h ih => exact .step (ih hc)
  | call hb hp h _ ih => exact .later hb hp (ih hc)
  | left hb h ih => exact .after hb (ih hc)

/-! ## Routines on the way of a run -/

/-- A run of a routine from a moment goes through another routine at a later one: it comes to
whatever that comes to. -/
def Includes (S : Surroundings ε κ) (p : Routine ε (Call κ) α) (σ : Moment ε κ)
    (q : Routine ε (Call κ) β) (σ' : Moment ε κ) : Prop :=
  ∀ c σ₁, @Comes ε κ S (Except Failure β) q σ' c σ₁ → @Comes ε κ S (Except Failure α) p σ c σ₁

namespace Includes

variable {p : Routine ε (Call κ) α} {q : Routine ε (Call κ) β} {σ σ₁ σ₂ : Moment ε κ}

theorem refl (p : Routine ε (Call κ) α) (σ : Moment ε κ) : S.Includes p σ p σ := fun _ _ h => h

theorem trans {q' : Routine ε (Call κ) γ} (h : S.Includes p σ q σ₁)
    (h' : S.Includes q σ₁ q' σ₂) : S.Includes p σ q' σ₂ := fun c σ' hc => h c σ' (h' c σ' hc)

/-- What a call stands for is on the way of the call. -/
theorem body {c : Call κ} {q : Routine ε (Call κ) Value} (hc : S.body c = some q) :
    S.Includes (Routine.invoke c) σ q (σ.calling c) := fun _ _ h => .inside hc h

/-- The first of two routines is on the way of both. -/
theorem first (f : α → Routine ε (Call κ) β) : S.Includes (p >>= f) σ p σ := fun _ _ h => h.bind _

theorem outcome : S.Includes (Routine.outcome p) σ p σ := fun _ _ h => h.bind _

/-- A run comes to a call that it makes. -/
theorem comes {c : Call κ} (h : S.Includes p σ (Routine.invoke c) σ₁) :
    @Comes ε κ S (Except Failure α) p σ c σ₁ := h c σ₁ .here

end Includes

/-- How a routine ends is how its run ends. -/
theorem Yields.traced {R : Rule ε κ} {σ : Moment ε κ} {p : Routine ε (Call κ) α}
    {Q : Except Failure α → Moment ε κ → Prop} (h : S.Yields R σ p Q) :
    S.Yields R σ p fun r σ' => @Runs ε κ S (Except Failure α) p σ r σ' ∧ Q r σ' := by
  obtain ⟨r, σ', hr, hrule, hq⟩ := h
  exact ⟨r, σ', hr, hrule, hr, hq⟩

/-- One routine after another: the second one is on the way of both. -/
theorem Yields.bind_within {R : Rule ε κ} {σ : Moment ε κ} {p : Routine ε (Call κ) α}
    {f : α → Routine ε (Call κ) β} {Q : Except Failure β → Moment ε κ → Prop}
    (h : S.Yields R σ p fun r σ' =>
      match r with
      | .ok a => S.Includes (p >>= f) σ (f a) σ' → S.Yields R σ' (f a) Q
      | .error g => Q (.error g) σ') : S.Yields R σ (p >>= f) Q := by
  obtain ⟨r, σ₁, hr, hrule, hq⟩ := h
  refine .bind ⟨r, σ₁, hr, hrule, ?_⟩
  cases r with
  | ok a => exact hq fun _ _ hc => hr.comes_rest hc
  | error g => exact hq

/-! ## Calls on the way of a run -/

/-- Some calls are made in a run, one after the other, and none of them fails. Observers hear one
thing before the first of them and another after the last, and nothing between two of them; what is
heard in between is what the calls themselves let them hear. -/
inductive Within {ρ : Type} (S : Surroundings ε κ) (hears : List (Call κ) → ρ)
    (p : Routine ε (Call κ) α) (σ : Moment ε κ) : List (Call κ) → ρ → ρ → Prop where
  /-- No call is made. -/
  | none (x : ρ) : Within S hears p σ [] x x
  /-- A first call, and then others. -/
  | more {c : Call κ} {rest : List (Call κ)} {σ₁ σ₂ : Moment ε κ} {v : Value} {x : ρ}
    (comes : @Comes ε κ S (Except Failure α) p σ c σ₁)
    (runs : @Runs ε κ S Outcome (Routine.invoke c) σ₁ (.ok v) σ₂)
    (h : Within S hears p σ rest (hears σ₂.calls) x) :
    Within S hears p σ (c :: rest) (hears σ₁.calls) x

namespace Within

variable {ρ : Type} {hears : List (Call κ) → ρ} {p : Routine ε (Call κ) α} {σ : Moment ε κ}
  {cs cs' : List (Call κ)} {x y z : ρ}

/-- Calls that are made on the way of a run are made in the run. -/
theorem mono {q : Routine ε (Call κ) β} {σ' : Moment ε κ} (h : S.Within hears q σ' cs x y)
    (hq : S.Includes p σ q σ') : S.Within hears p σ cs x y := by
  induction h with
  | none x => exact .none x
  | more comes runs _ ih => exact .more (hq _ _ comes) runs ih

theorem append (h : S.Within hears p σ cs x y) (h' : S.Within hears p σ cs' y z) :
    S.Within hears p σ (cs ++ cs') x z := by
  induction h with
  | none x => exact h'
  | more comes runs _ ih => exact .more comes runs (ih h')

end Within

end Surroundings

end GuardedWalk
