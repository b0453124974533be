import GuardedWalk.Proofs.Run.Surroundings

/-!
# Runs without what happens in some calls

What happens while a call is answered may be left out of a run, as if others had answered the call.
Later it can be filled in. A run on a thread that is alone depends on nothing but the world, so what
happens in a call is the same wherever the call is made, and the calls of the whole run are those of
the run without it, each followed by the calls that are made while it is answered.

## Main definitions

* `GuardedWalk.Surroundings.Answers` — what a call comes to on a thread that is alone.
* `GuardedWalk.Surroundings.without` — surroundings in which some calls are answered at once.
* `GuardedWalk.Surroundings.Filled` — calls with those that are made while they are answered.

## Main results

* `GuardedWalk.Surroundings.Runs.elsewhere` — a run depends on nothing but the world.
* `GuardedWalk.Surroundings.Yields.fill` — what was left out is filled in.
-/

set_option autoImplicit false

namespace GuardedWalk

namespace Surroundings

variable {ε κ α : Type} {body : Call κ → Program ε (Call κ) Outcome}

/-- A run on a thread that is alone depends on nothing but the world. -/
theorem Runs.elsewhere {p : Program ε (Call κ) α} {σ σ' : Moment ε κ} {a : α}
    (h : (alone body).Runs p σ a σ') :
    ∃ l, σ'.calls = σ.calls ++ l ∧ ∀ τ : Moment ε κ, τ.world = σ.world →
      ∃ τ', (alone body).Runs p τ a τ' ∧ τ'.world = σ'.world ∧ τ'.calls = τ.calls ++ l := by
  induction h with
  | done a σ => exact ⟨[], by simp, fun τ hτ => ⟨τ, .done a τ, hτ, by simp⟩⟩
  | @step α β change next σ σ' a h ih =>
    obtain ⟨l, hl, hrun⟩ := ih
    refine ⟨l, hl, fun τ hτ => ?_⟩
    have hbefore : (alone body).before σ = (alone body).before τ := by
      rw [before_alone, before_alone, hτ]
    rw [hbefore] at hrun
    obtain ⟨τ', hr, hw, hc⟩ := hrun (τ.stepped (change ((alone body).before τ)).2) rfl
    exact ⟨τ', .step hr, hw, hc⟩
  | @call α c next p σ σ₁ σ' o a hc hp h ihp ih =>
    obtain ⟨l, hl, hin⟩ := ihp
    obtain ⟨l', hl', hafter⟩ := ih
    refine ⟨c :: l ++ l', ?_, fun τ hτ => ?_⟩
    · rw [hl']
      show σ₁.calls ++ l' = _
      rw [hl]
      simp [Moment.calling]
    · obtain ⟨τ₁, hr₁, hw₁, hc₁⟩ := hin (τ.calling c) hτ
      obtain ⟨τ', hr, hw, hc'⟩ := hafter τ₁.returned hw₁
      refine ⟨τ', .call hc hr₁ hr, hw, ?_⟩
      rw [hc']
      show τ₁.calls ++ l' = _
      rw [hc₁]
      simp [Moment.calling]
  | left hc => simp [alone] at hc

/-! ## Calls that are answered at once -/

/-- What a call comes to in a world on a thread that is alone: how it is answered, which world it
leaves, and what is called meanwhile. -/
def Answers (body : Call κ → Program ε (Call κ) Outcome) (w : World ε) (c : Call κ) (o : Outcome)
    (w' : World ε) (l : List (Call κ)) : Prop :=
  ∃ σ', (alone body).Runs (body c) ((Moment.start w).calling c) o σ' ∧ σ'.world = w' ∧
    σ'.calls = c :: l

/-- A call comes to the same wherever it is made. -/
theorem Answers.elsewhere {w w' : World ε} {c : Call κ} {o : Outcome} {l : List (Call κ)}
    (h : Answers body w c o w' l) {τ : Moment ε κ} (hτ : τ.world = w) :
    ∃ τ', (alone body).Runs (body c) (τ.calling c) o τ' ∧ τ'.world = w' ∧
      τ'.calls = τ.calls ++ c :: l := by
  obtain ⟨σ', hr, rfl, hc⟩ := h
  obtain ⟨l', hl', hrun⟩ := hr.elsewhere
  obtain rfl : l = l' := by
    rw [hc] at hl'
    exact (List.cons.inj hl').2
  obtain ⟨τ', hr', hw', hc'⟩ := hrun (τ.calling c) hτ
  exact ⟨τ', hr', hw', by rw [hc']; simp [Moment.calling]⟩

/-- A call comes to one thing only. -/
theorem Answers.unique {w w₁ w₂ : World ε} {c : Call κ} {o₁ o₂ : Outcome} {l₁ l₂ : List (Call κ)}
    (h₁ : Answers body w c o₁ w₁ l₁) (h₂ : Answers body w c o₂ w₂ l₂) : o₁ = o₂ ∧ w₁ = w₂ := by
  obtain ⟨σ₁, hr₁, rfl, -⟩ := h₁
  obtain ⟨σ₂, hr₂, rfl, -⟩ := h₂
  obtain ⟨ho, rfl⟩ := hr₁.unique hr₂
  exact ⟨ho, rfl⟩

/-- A call that comes to something at one moment comes to it in the world of that moment. -/
theorem Answers.of_yields {R : Rule ε κ} {w : World ε} {c : Call κ}
    {Q : Outcome → Moment ε κ → Prop}
    (h : @Yields ε κ Value (alone body) R ((Moment.start w).calling c) (body c) Q) :
    ∃ o σ' l, Answers body w c o σ'.world l ∧ σ'.calls = c :: l ∧ Q o σ' := by
  obtain ⟨o, σ', hr, -, hq⟩ := h
  obtain ⟨l, hl, -⟩ := hr.elsewhere
  exact ⟨o, σ', l, ⟨σ', hr, rfl, hl⟩, hl, hq⟩

open Classical in
/-- Surroundings in which some calls are answered at once, in the way in which they would be
answered on a thread that is alone. -/
noncomputable def without (body : Call κ → Program ε (Call κ) Outcome) (p : Call κ → Bool) :
    Surroundings ε κ where
  body c := if p c then none else some (body c)
  move σ := σ.world
  reply σ c :=
    if h : ∃ q : Outcome × World ε, ∃ l, Answers body σ.world c q.1 q.2 l then h.choose
    else (.ok .none, σ.world)

theorem body_without_eq_some {p : Call κ → Bool} {c : Call κ} {q : Program ε (Call κ) Outcome} :
    (without body p).body c = some q ↔ p c = false ∧ body c = q := by
  cases hp : p c <;> simp [without, hp]

theorem body_without_eq_none {p : Call κ → Bool} {c : Call κ} :
    (without body p).body c = none ↔ p c = true := by
  cases hp : p c <;> simp [without, hp]

theorem reply_without {p : Call κ → Bool} {σ : Moment ε κ} {c : Call κ} {o : Outcome}
    {w' : World ε} {l : List (Call κ)} (h : Answers body σ.world c o w' l) :
    (without body p).reply σ c = (o, w') := by
  have hex : ∃ q : Outcome × World ε, ∃ l, Answers body σ.world c q.1 q.2 l := ⟨(o, w'), l, h⟩
  have hreply : (without body p).reply σ c = hex.choose := dif_pos hex
  obtain ⟨l', hchosen⟩ := hex.choose_spec
  obtain ⟨ho, hw⟩ := hchosen.unique h
  rw [hreply]
  exact Prod.ext ho hw

/-! ## What was left out -/

/-- Calls with those that are made while some of them are answered. -/
inductive Filled (p : Call κ → Bool) (N : Call κ → List (Call κ) → Prop) :
    List (Call κ) → List (Call κ) → Prop where
  | nil : Filled p N [] []
  | own {c : Call κ} {l m : List (Call κ)} (hc : p c = false) (h : Filled p N l m) :
    Filled p N (c :: l) (c :: m)
  | put {c : Call κ} {l m n : List (Call κ)} (hc : p c = true) (hn : N c n) (h : Filled p N l m) :
    Filled p N (c :: l) (c :: n ++ m)

theorem Filled.append {p : Call κ → Bool} {N : Call κ → List (Call κ) → Prop}
    {l l' m m' : List (Call κ)} (h : Filled p N l m) (h' : Filled p N l' m') :
    Filled p N (l ++ l') (m ++ m') := by
  induction h with
  | nil => exact h'
  | own hc _ ih => exact .own hc ih
  | put hc hn _ ih =>
    rw [List.append_assoc]
    exact .put hc hn ih

section Fill

variable {p : Call κ → Bool} {N : Call κ → List (Call κ) → Prop}

/-- What was left out of a run is filled in, call by call. -/
theorem Runs.fill {q : Program ε (Call κ) α} {σ σ' : Moment ε κ} {a : α}
    (h : (without body p).Runs q σ a σ')
    (hN : ∀ c σ₁, (without body p).Comes q σ c σ₁ → p c = true →
      ∃ o w' n, Answers body σ₁.world c o w' n ∧ N c n) (τ : Moment ε κ)
    (hτ : τ.world = σ.world) :
    ∃ τ' l m, (alone body).Runs q τ a τ' ∧ τ'.world = σ'.world ∧ σ'.calls = σ.calls ++ l ∧
      τ'.calls = τ.calls ++ m ∧ Filled p N l m := by
  induction h generalizing τ with
  | done a σ => exact ⟨τ, [], [], .done a τ, hτ, by simp, by simp, .nil⟩
  | @step α β change next σ σ' a h ih =>
    have hbefore : (without body p).before σ = (alone body).before τ := by
      rw [before_alone, hτ]
      simp [before, without]
    have hlater := ih fun c σ₁ hc => hN c σ₁ (.step hc)
    rw [hbefore] at hlater
    obtain ⟨τ', l, m, hr, hw, hl, hm, hfilled⟩ :=
      hlater (τ.stepped (change ((alone body).before τ)).2) rfl
    exact ⟨τ', l, m, .step hr, hw, hl, hm, hfilled⟩
  | @call α c next q σ σ₁ σ' o a hc hq h ihq ih =>
    obtain ⟨hown, rfl⟩ := body_without_eq_some.1 hc
    obtain ⟨τ₁, l₁, m₁, hr₁, hw₁, hl₁, hm₁, hfilled₁⟩ :=
      ihq (fun c' σ₂ hc' => hN c' σ₂ (.inside hc hc')) (τ.calling c) hτ
    obtain ⟨τ', l, m, hr, hw, hl, hm, hfilled⟩ :=
      ih (fun c' σ₂ hc' => hN c' σ₂ (.later hc hq hc')) τ₁.returned hw₁
    refine ⟨τ', c :: l₁ ++ l, c :: m₁ ++ m, .call rfl hr₁ hr, hw, ?_, ?_,
      (Filled.own hown hfilled₁).append hfilled⟩
    · rw [hl]
      show σ₁.calls ++ l = _
      rw [hl₁]
      simp [Moment.calling]
    · rw [hm]
      show τ₁.calls ++ m = _
      rw [hm₁]
      simp [Moment.calling]
  | @left α c next σ σ' a hc h ih =>
    -- a call that was answered at once runs instead, and comes to the same
    have hput := body_without_eq_none.1 hc
    obtain ⟨o, w', n, hanswers, hn⟩ := hN c σ .here hput
    have hlater := ih fun c' σ₂ hc' => hN c' σ₂ (.after hc hc')
    rw [reply_without hanswers] at hlater
    obtain ⟨τ₁, hr₁, hw₁, hc₁⟩ := hanswers.elsewhere hτ
    obtain ⟨τ', l, m, hr, hw, hl, hm, hfilled⟩ := hlater τ₁.returned hw₁
    refine ⟨τ', c :: l, c :: n ++ m, .call rfl hr₁ hr, hw, ?_, ?_, .put hput hn hfilled⟩
    · rw [hl]
      simp [Moment.answered]
    · rw [hm]
      show τ₁.calls ++ m = _
      rw [hc₁]
      simp

/-- **What was left out of a run is filled in**: what is found out about the run without it holds of
the run with it. -/
theorem Yields.fill {R : Rule ε κ} {q : Routine ε (Call κ) α}
    {Q : Except Failure α → Moment ε κ → Prop} {σ τ : Moment ε κ}
    (h : (without body p).Yields R σ q Q)
    (hN : ∀ c σ₁, R c σ₁ → p c = true → ∃ o w' n, Answers body σ₁.world c o w' n ∧ N c n)
    (hτ : τ.world = σ.world) :
    (alone body).Yields (.free ε κ) τ q fun r τ' => ∃ σ' l m, Q r σ' ∧ τ'.world = σ'.world ∧
      σ'.calls = σ.calls ++ l ∧ τ'.calls = τ.calls ++ m ∧ Filled p N l m := by
  obtain ⟨r, σ', hr, hrule, hq⟩ := h
  obtain ⟨τ', l, m, hr', hw, hl, hm, hfilled⟩ :=
    hr.fill (fun c σ₁ hc => hN c σ₁ (hrule c σ₁ hc)) τ hτ
  exact ⟨r, τ', hr', fun _ _ _ => trivial, σ', l, m, hq, hw, hl, hm, hfilled⟩

end Fill

end Surroundings

end GuardedWalk
