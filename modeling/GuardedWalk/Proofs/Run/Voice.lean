import GuardedWalk.Proofs.Run.Surroundings

/-!
# Programs in the middle of a run

A program that makes a call goes on with what the call stands for, and keeps what follows the call
on a stack. Some calls are made outside: there it stops, and goes on when it is given an answer.

## Main definitions

* `GuardedWalk.Voice` — a program in the middle of a run.
* `GuardedWalk.Voice.advance`, `Settles` — it goes on by one step, or until it stops.
* `GuardedWalk.Surroundings.Goes` — it runs to its end in given surroundings.

## Main results

* `GuardedWalk.Voice.Settles.reaches` — what goes on so does so on a machine.
* `GuardedWalk.Surroundings.Runs.goes` — what runs to its end does so step by step.
* `GuardedWalk.Surroundings.Goes.congr` — surroundings matter only from now on.
-/

set_option autoImplicit false

namespace GuardedWalk

variable {ε κ : Type}

/-- A program in the middle of a run: what it does now, and what follows the calls that it is inside
of, the innermost first. -/
structure Voice (ε κ : Type) where
  now : Program ε (Call κ) Outcome
  stack : List (Outcome → Program ε (Call κ) Outcome)

namespace Voice

variable (outside : Call κ → Bool) (body : Call κ → Program ε (Call κ) Outcome)

/-- The program goes on by one step, unless it is at its end, makes a call outside or has to
wait. -/
def advance (v : Voice ε κ) (w : World ε) : Option (Voice ε κ × World ε) :=
  match v.now, v.stack with
  | .done o, next :: rest => some (⟨next o, rest⟩, w)
  | .step change next, stack =>
    let (b, w) := change w
    some (⟨next b, stack⟩, w)
  | .call c next, stack => if outside c then none else some (⟨body c, next :: stack⟩, w)
  | _, _ => none

/-- The program goes on until it stops. -/
inductive Settles : Voice ε κ → World ε → Voice ε κ → World ε → Prop where
  | stops {v : Voice ε κ} {w : World ε} (h : v.advance outside body w = none) : Settles v w v w
  | goes {v v₁ v' : Voice ε κ} {w w₁ w' : World ε} (h : v.advance outside body w = some (v₁, w₁))
    (h' : Settles v₁ w₁ v' w') : Settles v w v' w'

variable {outside : Call κ → Bool} {body : Call κ → Program ε (Call κ) Outcome}
  {v v' : Voice ε κ} {w w' : World ε}

/-- A program goes on in one way only. -/
theorem Settles.unique {v'' : Voice ε κ} {w'' : World ε} (h : Settles outside body v w v' w')
    (h' : Settles outside body v w v'' w'') : v' = v'' ∧ w' = w'' := by
  induction h with
  | stops h =>
    cases h' with
    | stops => exact ⟨rfl, rfl⟩
    | goes h₁ _ => cases h.symm.trans h₁
  | goes h _ ih =>
    cases h' with
    | stops h₁ => cases h₁.symm.trans h
    | goes h₁ h' =>
      obtain ⟨rfl, rfl⟩ := Prod.mk.inj (Option.some.inj (h.symm.trans h₁))
      exact ih h'

variable {bodies : Thread → Call κ → Program ε (Call κ) Outcome} {t : Thread}

/-- A step is one of a machine on which the program runs. -/
theorem advance_machine (h : v.advance outside (bodies t) w = some (v', w'))
    (others : List (Task ε (Call κ))) :
    Machine.advance bodies ⟨w, ⟨t, .running v.now, v.stack⟩, others⟩ =
      .next ⟨w', ⟨t, .running v'.now, v'.stack⟩, others⟩ := by
  obtain ⟨now, stack⟩ := v
  unfold advance at h
  split at h
  · rename_i o next rest hnow hstack
    obtain rfl : now = .done o := hnow
    obtain rfl : stack = next :: rest := hstack
    obtain ⟨rfl, rfl⟩ := Prod.mk.inj (Option.some.inj h)
    rfl
  · rename_i β change next hnow
    obtain rfl : now = .step change next := hnow
    obtain ⟨rfl, rfl⟩ := Prod.mk.inj (Option.some.inj h)
    rfl
  · rename_i c next hnow
    obtain rfl : now = .call c next := hnow
    split at h
    · cases h
    · obtain ⟨rfl, rfl⟩ := Prod.mk.inj (Option.some.inj h)
      rfl
  · cases h

/-- **What goes on does so on a machine**, whatever the other threads are doing. -/
theorem Settles.reaches (h : Settles outside (bodies t) v w v' w')
    (others : List (Task ε (Call κ))) :
    Machine.Reaches bodies ⟨w, ⟨t, .running v.now, v.stack⟩, others⟩
      ⟨w', ⟨t, .running v'.now, v'.stack⟩, others⟩ := by
  induction h with
  | stops _ => exact .here _
  | goes h _ ih => exact .step (advance_machine h others) ih

end Voice

namespace Surroundings

variable {α : Type} {S S' : Surroundings ε κ} {R R' : Rule ε κ}

/-- A program in the middle of a run goes on to its end, and a rule holds of all its calls. -/
inductive Goes (S : Surroundings ε κ) (R : Rule ε κ) :
    Voice ε κ → Moment ε κ → Outcome → Moment ε κ → Prop where
  /-- It is at its end. -/
  | ended (o : Outcome) (σ : Moment ε κ) : Goes S R ⟨.done o, []⟩ σ o σ
  /-- A call has been answered. -/
  | back {o r : Outcome} {next : Outcome → Program ε (Call κ) Outcome}
      {stack : List (Outcome → Program ε (Call κ) Outcome)} {σ σ' : Moment ε κ}
      (h : Goes S R ⟨next o, stack⟩ σ.returned r σ') : Goes S R ⟨.done o, next :: stack⟩ σ r σ'
  /-- A step, after others may have acted. -/
  | step {β : Type} {change : World ε → β × World ε} {next : β → Program ε (Call κ) Outcome}
      {stack : List (Outcome → Program ε (Call κ) Outcome)} {r : Outcome} {σ σ' : Moment ε κ}
      (h : Goes S R ⟨next (change (S.before σ)).1, stack⟩
        (σ.stepped (change (S.before σ)).2) r σ') :
      Goes S R ⟨.step change next, stack⟩ σ r σ'
  /-- A call whose meaning is known. -/
  | call {c : Call κ} {p : Program ε (Call κ) Outcome}
      {next : Outcome → Program ε (Call κ) Outcome}
      {stack : List (Outcome → Program ε (Call κ) Outcome)} {r : Outcome} {σ σ' : Moment ε κ}
      (hc : S.body c = some p) (hr : R c σ) (h : Goes S R ⟨p, next :: stack⟩ (σ.calling c) r σ') :
      Goes S R ⟨.call c next, stack⟩ σ r σ'
  /-- A call that others answer. -/
  | left {c : Call κ} {next : Outcome → Program ε (Call κ) Outcome}
      {stack : List (Outcome → Program ε (Call κ) Outcome)} {r : Outcome} {σ σ' : Moment ε κ}
      (hc : S.body c = none) (hr : R c σ)
      (h : Goes S R ⟨next (S.reply σ c).1, stack⟩ (σ.answered c (S.reply σ c).2) r σ') :
      Goes S R ⟨.call c next, stack⟩ σ r σ'

/-- **What runs to its end does so step by step.** -/
theorem Runs.goes {p : Program ε (Call κ) α} {σ σ₁ σ' : Moment ε κ} {a : α}
    (h : S.Runs p σ a σ₁) (hR : ∀ c σ₂, S.Comes p σ c σ₂ → R c σ₂)
    {next : α → Program ε (Call κ) Outcome}
    {stack : List (Outcome → Program ε (Call κ) Outcome)} {r : Outcome}
    (hg : S.Goes R ⟨next a, stack⟩ σ₁ r σ') : S.Goes R ⟨p.bind next, stack⟩ σ r σ' := by
  induction h generalizing stack with
  | done a σ => exact hg
  | step h ih => exact .step (ih (fun c σ₂ hc => hR c σ₂ (.step hc)) hg)
  | call hc hp h ihp ih =>
    rename_i c rest p σ σ₁ σ₂ o b
    have hlater := ih (fun c' σ₂ hc' => hR c' σ₂ (.later hc hp hc')) hg
    have hin : S.Goes R ⟨p.bind .done, (fun o => (rest o).bind next) :: stack⟩ (σ.calling c) r σ' :=
      ihp (fun c' σ₂ hc' => hR c' σ₂ (.inside hc hc')) (.back hlater)
    rw [Program.bind_done] at hin
    exact .call hc (hR _ _ .here) hin
  | left hc h ih =>
    exact .left hc (hR _ _ .here) (ih (fun c' σ₂ hc' => hR c' σ₂ (.after hc hc')) hg)

/-- A routine that yields something goes on to it. -/
theorem Yields.goes {p : Routine ε (Call κ) Value} {σ : Moment ε κ}
    {Q : Outcome → Moment ε κ → Prop} (h : S.Yields R σ p Q) :
    ∃ r σ', S.Goes R ⟨p, []⟩ σ r σ' ∧ Q r σ' := by
  obtain ⟨r, σ', hruns, hrule, hq⟩ := h
  have hg : S.Goes R ⟨Program.bind (α := Outcome) p .done, []⟩ σ r σ' :=
    Runs.goes hruns hrule (.ended r σ')
  rw [Program.bind_done] at hg
  exact ⟨r, σ', hg, hq⟩

/-- The calls that have been made stay. -/
theorem Goes.calls {v : Voice ε κ} {σ σ' : Moment ε κ} {r : Outcome} (h : S.Goes R v σ r σ') :
    σ.calls <+: σ'.calls := by
  induction h with
  | ended o σ => exact List.prefix_rfl
  | back _ ih | step _ ih => exact ih
  | call _ _ _ ih | left _ _ _ ih => exact (List.prefix_append ..).trans ih

/-- **Surroundings matter only from now on.** -/
theorem Goes.congr {v : Voice ε κ} {σ₀ σ σ' : Moment ε κ} {r : Outcome} (h : S.Goes R v σ r σ')
    (hσ : σ₀.calls <+: σ.calls) (hbody : S'.body = S.body) (hmove : S'.move = S.move)
    (hreply : ∀ τ c, σ₀.calls <+: τ.calls → S'.reply τ c = S.reply τ c)
    (hR : ∀ c τ, R c τ → R' c τ) : S'.Goes R' v σ r σ' := by
  have hbefore : ∀ τ, S'.before τ = S.before τ := fun τ => by simp [before, hmove]
  induction h with
  | ended o σ => exact .ended o σ
  | back _ ih => exact .back (ih hσ)
  | @step β change next stack r σ σ' _ ih =>
    refine .step ?_
    rw [hbefore]
    exact ih hσ
  | call hc hr _ ih =>
    exact .call (hbody ▸ hc) (hR _ _ hr) (ih (hσ.trans (List.prefix_append ..)))
  | left hc hr _ ih =>
    refine .left (hbody ▸ hc) (hR _ _ hr) ?_
    rw [hreply _ _ hσ]
    exact ih (hσ.trans (List.prefix_append ..))

end Surroundings

end GuardedWalk
