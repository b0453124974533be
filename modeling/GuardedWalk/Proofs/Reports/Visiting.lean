import GuardedWalk.Proofs.Run.Inclusion
import GuardedWalk.Proofs.Walk.Answering

/-!
# What a visit leaves behind

A visitor asks a guarded node for its traversal, and one policy that writes reports is looked at. If
the visitor may not traverse the node and the guard that answers for the node has this policy, the
policy writes one report about the visit, and nobody else has a say in it. Any other visit is left
to others, once: to what the wrapper of the node hides, or to another policy.

## Main definitions

* `GuardedWalk.Call.isOthers` — the calls that are left to others.
* `GuardedWalk.Surroundings.besides` — surroundings in which others answer those.
* `GuardedWalk.World.Logs` — nothing has happened but that something may have been logged.

## Main results

* `GuardedWalk.Surroundings.Yields.among` — a thread that calls nobody else runs as if alone.
* `GuardedWalk.Walk.filed_yields` — one report is written about a visitor that is turned away.
* `GuardedWalk.Walk.handed_yields` — any other visit is left to others.
-/

set_option autoImplicit false

namespace GuardedWalk

variable {ε κ α : Type}

/-! ## Runs that call nobody else -/

namespace Surroundings

variable {body : Call κ → Program ε (Call κ) Outcome} {S : Surroundings ε κ}

/-- A run of a thread that is alone is one among others if nothing is left to them that it calls. -/
theorem Runs.among (hmove : ∀ σ, S.move σ = σ.world) {p : Program ε (Call κ) α}
    {σ σ' : Moment ε κ} {a : α} (h : (alone body).Runs p σ a σ')
    (hbody : ∀ c σ₁, (alone body).Comes p σ c σ₁ → S.body c = some (body c)) :
    S.Runs p σ a σ' ∧ ∀ c σ₁, S.Comes p σ c σ₁ → (alone body).Comes p σ c σ₁ := by
  have hbefore : ∀ σ, S.before σ = (alone body).before σ := fun σ => by
    rw [before_alone, before, hmove, ite_self]
  induction h with
  | done a σ => exact ⟨.done a σ, fun c σ₁ hc => by cases hc⟩
  | step h ih =>
    obtain ⟨hrun, hcomes⟩ := ih fun c σ₁ hc => hbody c σ₁ (.step hc)
    rw [← hbefore] at hrun hcomes
    refine ⟨.step hrun, fun c σ₁ hc => ?_⟩
    cases hc with
    | step hc => exact .step (by simpa only [hbefore] using hcomes c σ₁ hc)
  | @call α c next q σ σ₁ σ' o a hc hp h ihp ih =>
    obtain rfl : body c = q := Option.some.inj hc
    obtain ⟨hin, hinside⟩ := ihp fun c' σ₂ hc' => hbody c' σ₂ (.inside rfl hc')
    obtain ⟨hrun, hlater⟩ := ih fun c' σ₂ hc' => hbody c' σ₂ (.later rfl hp hc')
    have hmeans := hbody c σ .here
    refine ⟨.call hmeans hin hrun, fun c' σ₂ hc' => ?_⟩
    cases hc' with
    | here => exact .here
    | inside hb hc' =>
      obtain rfl := Option.some.inj (hmeans.symm.trans hb)
      exact .inside rfl (hinside c' σ₂ hc')
    | later hb hp' hc' =>
      obtain rfl := Option.some.inj (hmeans.symm.trans hb)
      obtain ⟨rfl, rfl⟩ := hin.unique hp'
      exact .later rfl hp (hlater c' σ₂ hc')
    | after hb _ => simp [hmeans] at hb
  | left hc => simp [alone] at hc

/-- What a routine of a thread that is alone comes to, it comes to among others if nothing is left
to them that it calls. -/
theorem Yields.among {R₀ R : Rule ε κ} {σ : Moment ε κ} {p : Routine ε (Call κ) α}
    {Q : Except Failure α → Moment ε κ → Prop} (h : (alone body).Yields R₀ σ p Q)
    (hmove : ∀ σ, S.move σ = σ.world) (hbody : ∀ c σ₁, R₀ c σ₁ → S.body c = some (body c))
    (hR : ∀ c σ₁, R₀ c σ₁ → R c σ₁) : S.Yields R σ p Q := by
  obtain ⟨r, σ', hrun, hrule, hq⟩ := h
  obtain ⟨hrun', hcomes⟩ := hrun.among hmove fun c σ₁ hc => hbody c σ₁ (hrule c σ₁ hc)
  exact ⟨r, σ', hrun', fun c σ₁ hc => hR c σ₁ (hrule c σ₁ (hcomes c σ₁ hc)), hq⟩

end Surroundings

/-! ## What is left to others -/

/-- Whether a call is left to others where one policy is looked at: a value is called, or another
policy is asked. -/
def Call.isOthers (p : Ref .policy) : Call κ → Bool
  | apply .. => true
  | send target .handle _ =>
    match target with
    | .policy q => q ≠ p
    | _ => false
  | _ => false

theorem Call.isOthers_of_asks {p : Ref .policy} {c : Call κ} (h : c.asks = true) :
    c.isOthers p = false := by
  unfold asks at h
  split at h
  all_goals first | rfl | cases h

/-- Nothing happens between the steps of a program. What is left to others they answer in some way,
and leave some world. -/
def Surroundings.besides (F : Foreign ε κ) (t : Thread) (p : Ref .policy) (o : Outcome)
    (w : World ε) : Surroundings ε κ where
  body c := if c.isOthers p then none else some (Walk.body F t c)
  move := Moment.world
  reply _ _ := (o, w)

/-- Something may have been logged, and nothing else has happened. -/
def World.Logs (w w' : World ε) : Prop := ∃ j, w' = { w with journal := j }

namespace Walk

open Surroundings

variable {F : Foreign ε κ} {t : Thread} {p q : Ref .policy} {S : Surroundings ε κ} {R : Rule ε κ}
  {w : World ε} {σ : Moment ε κ} {r : Ref .node} {g : Ref .guard} {inner visitor : Value}

/-- Guards and tokens can be asked in peace where only that is left to others. -/
theorem calm_besides (hmove : ∀ σ, S.move σ = σ.world)
    (hbody : ∀ c : Call κ, c.isOthers p = false → S.body c = some (Walk.body F t c))
    (hR : ∀ (c : Call κ) σ, c.isOthers p = false → R c σ) : S.Calm F t R where
  move := hmove
  body c hc := hbody c (Call.isOthers_of_asks hc)
  rule c σ hc := hR c σ (Call.isOthers_of_asks hc)

/-- **One report is written about a visitor that is turned away** from a node whose guard has a
policy that writes reports, and nothing is left to others. -/
theorem filed_yields (hmove : ∀ σ, S.move σ = σ.world)
    (hbody : ∀ c : Call κ, c.isOthers p = false → S.body c = some (Walk.body F t c))
    (hR : ∀ (c : Call κ) σ, c.isOthers p = false → R c σ) {E : Ref .list → Prop}
    (hguarded : w.GuardedBy (.node r) g inner) (hg : w.Unhidden (.guard g))
    (hquiet : ∀ n, w.ownValue (.guard g) Guard.quietField ≠ .node n)
    (hpolicy : w.ownValue (.guard g) Guard.policyField = .policy p)
    (hopen : w.Unhidden (.policy p)) (hrecord : (w.policies.get p).body = .record)
    (hfiles : w.Files E p) (hvisitor : w.Settled visitor) (hno : ¬ w.Entitles t visitor) :
    S.Yields R (.start w) (send (.node r) .accept [visitor]) fun o σ => o = .ok .none ∧
      ∃ l j, w.ownValue (.policy p) Policy.reportsField = .list l ∧
        σ.world = w.withReport l (Reports.report (w.attempt t (.node r) visitor)) j := by
  have hS := calm_besides (F := F) (t := t) hmove hbody hR
  let c₀ : Call κ := .send (.node r) .accept [visitor]
  have h₀ : ((Moment.start w).calling c₀).Asked w ((Moment.start w).calling c₀) :=
    ⟨rfl, [], by simp⟩
  refine .invoke (hbody c₀ rfl) (hR c₀ _ rfl) ?_
  refine hS.accept h₀ hguarded (by simp) fun σ₁ h₁ => ?_
  refine hS.dispatch h₁ hvisitor hg (World.isTrue_of_no_node hquiet) (absurd · hno)
    fun _ σ₂ h₂ => ?_
  rw [hpolicy]
  -- what is logged about the visitor changes nothing that the policy looks at
  obtain ⟨j, hj⟩ := w.noticed_eq t g (.node r) visitor
  rw [hj] at h₂
  let c₁ : Call κ := .send (.policy p) .handle [.node r, visitor]
  have hown : c₁.isOthers p = false := by simp [c₁, Call.isOthers]
  refine .invoke (hbody c₁ hown) (hR c₁ _ hown) ?_
  have h₃ : (σ₂.calling c₁).Asked { w with journal := j } (σ₂.calling c₁) :=
    ⟨h₂.world, [], by simp⟩
  refine hS.delivered h₃ rfl (hopen _ (by simp)) rfl fun σ₄ h₄ => ?_
  refine .bind (hS.read h₄ fun σ₅ h₅ => ?_)
  simp only [hrecord]
  have halone : (alone (body F t)).Yields (fun c _ => c.isOthers p = false) σ₅
      (record t p (.node r) visitor) fun o σ => o = .ok .none ∧
        ∃ l j, w.ownValue (.policy p) Policy.reportsField = .list l ∧
          σ.world = w.withReport l (Reports.report (w.attempt t (.node r) visitor)) j := by
    have hcalm : (alone (body F t)).Calm F t fun c _ => c.isOthers p = false :=
      calm_besides (fun _ => rfl) (fun _ _ => rfl) fun _ _ h => h
    refine record_yields hcalm (fun l m args σ' _ => by cases m <;> rfl) h₅.world
      (hfiles.frame (World.beside_journal E _ j).toFrame trivial) fun l j' σ' hl _ _ hw => ?_
    exact ⟨rfl, l, j', hl, hw⟩
  exact halone.among hmove (fun c _ => hbody c) hR

/-- **Any other visit is left to others**, once: to what the wrapper hides, or to another policy.
They find the world as it was at the beginning, apart from what has been logged, and how they answer
is how the visit ends. -/
theorem handed_yields {o : Outcome} {w' : World ε}
    (hguarded : w.GuardedBy (.node r) g inner) (hg : w.Unhidden (.guard g))
    (hquiet : ∀ n, w.ownValue (.guard g) Guard.quietField ≠ .node n)
    (hpolicy : w.ownValue (.guard g) Guard.policyField = .policy q) (hvisitor : w.Settled visitor)
    (hother : w.Entitles t visitor ∨ q ≠ p) :
    (besides F t p o w').Yields
      (fun c σ => c.isOthers p = true → w.Logs σ.world) (.start w)
      (send (.node r) .accept [visitor]) fun r σ => r = o ∧ σ.world = w' ∧
        ∃ c ∈ σ.calls, c.isOthers p = true := by
  have hmeans : ∀ c : Call κ, c.isOthers p = false →
      (besides F t p o w').body c = some (Walk.body F t c) := fun c hc => by simp [besides, hc]
  have hrule : ∀ (c : Call κ) (σ : Moment ε κ), c.isOthers p = false →
      c.isOthers p = true → w.Logs σ.world := fun c σ hc hc' => by simp [hc] at hc'
  have hS := calm_besides (F := F) (t := t) (fun _ => rfl) hmeans hrule
  -- the call that is left to others is the last one
  have hlast : ∀ {c : Call κ} {σ : Moment ε κ}, c.isOthers p = true → w.Logs σ.world →
      (besides F t p o w').Yields (fun c σ => c.isOthers p = true → w.Logs σ.world) σ
        (Routine.invoke c) fun r σ => r = o ∧ σ.world = w' ∧
          ∃ c ∈ σ.calls, c.isOthers p = true := fun {c σ} hc hw =>
    .left (by simp [besides, hc]) (fun _ => hw) ⟨rfl, rfl, c, by simp [Moment.answered], hc⟩
  let c₀ : Call κ := .send (.node r) .accept [visitor]
  have h₀ : ((Moment.start w).calling c₀).Asked w ((Moment.start w).calling c₀) :=
    ⟨rfl, [], by simp⟩
  refine .invoke (hmeans c₀ rfl) (hrule c₀ _ rfl) ?_
  refine hS.accept h₀ hguarded (by simp) fun σ₁ h₁ => ?_
  refine hS.dispatch h₁ hvisitor hg (World.isTrue_of_no_node hquiet) (fun _ σ₂ h₂ => ?_)
    fun hno σ₂ h₂ => ?_
  · exact hlast rfl ⟨w.journal, h₂.world⟩
  · have hq : q ≠ p := hother.resolve_left hno
    rw [hpolicy]
    refine hlast (by simp [Call.isOthers, hq]) ?_
    rw [h₂.world]
    exact w.noticed_eq t g (.node r) visitor

end Walk

end GuardedWalk
