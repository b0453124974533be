import GuardedWalk.Proofs.Walk.Audience

/-!
# Observers that make attempts

Some observers only take notes, others ask nodes for their traversal as soon as they are told
something: the node that they are told of, or any other one that is guarded, in the name of anybody
who has no guard. What they ask may depend on all that they have been told so far. Whatever turns
them away is caught. The walk goes on as if they had not asked.

## Main definitions

* `GuardedWalk.Plan` — what observers attempt.
* `GuardedWalk.Foreign.trying` — foreign code of observers that make attempts.
* `GuardedWalk.Walk.sheltered` — attempts are answered by policies of a kind.

## Main results

* `GuardedWalk.Walk.tryAll_yields` — attempts at guarded nodes are answered, and nothing else
  happens.
-/

set_option autoImplicit false

namespace GuardedWalk

variable {κ : Type}

/-- What observers attempt when they are told something, given all that they have been told: at
which nodes, and in whose name. -/
abbrev Plan : Type := List Callback → List (Ref .node × Value)

/-- Whether an observer is told that an event about a node begins. -/
def Told.isAbout (r : Ref .node) : Told → Bool
  | .before _ (.node r' :: _) => r' = r
  | _ => false

namespace Walk

open Routine

/-- An attempt at a node, in the name of a visitor: only if the visitor shows no guard of its own,
and if it was told that an event about the node begins or the node is guarded. What turns the
visitor away is caught. -/
def tryOne (history : List Callback) (r : Ref .node) (visitor : Value) :
    Steps (List Callback) κ Unit := do
  let may ← read fun w => (w.shownGuard? visitor).isNone &&
    (history.any (·.2.isAbout r) || w.isGuarded (.node r))
  if may then
    match ← (send (.node r) .accept [visitor]).outcome with
    | .error (.foreignTraversal ..) | .ok _ => return
    | .error f => throw f

/-- Some attempts, one after the other. -/
def tryAll (history : List Callback) : List (Ref .node × Value) → Steps (List Callback) κ Unit
  | [] => return
  | (r, visitor) :: rest => do
    tryOne history r visitor
    tryAll history rest

end Walk

/-- Foreign code of observers that make the attempts that are planned. -/
def Foreign.trying (F : Foreign (List Callback) κ) (plan : Plan) : Foreign (List Callback) κ :=
  F.mindful fun history => do
    Walk.tryAll history (plan history)
    return .none

/-! ## Attempts are answered -/

namespace Walk

open Surroundings

variable {ε : Type}

/-- No entry method of any visitor but the walker is called, and if anybody but the walker asks a
node for its traversal, that comes to what the policies of a kind answer. -/
def sheltered (F : Foreign ε κ) (X : Cast) (m : PolicyBody) : Rule ε κ := fun c σ =>
  (∀ v e args, c = .send v (.entry e) args → v = .walker X.walker) ∧
  ∀ r visitor, c = .send (.node r) .accept [visitor] → visitor = .walker X.walker ∨
    ∃ o σ', (alone (body F X.thread)).Runs (body F X.thread c) (σ.calling c) o σ' ∧
      Answered X.thread r visitor σ.world m o σ'.world

section Sheltered

variable {F : Foreign ε κ} {X : Cast} {m : PolicyBody} {c : Call κ}

theorem sheltered_of_isOwn (hc : X.isOwn c = true) (σ : Moment ε κ) : sheltered F X m c σ := by
  refine ⟨?_, ?_⟩
  · rintro v e args rfl
    exact of_decide_eq_true hc
  · rintro r visitor rfl
    have hargs : [visitor] = [Value.walker X.walker] := of_decide_eq_true hc
    exact .inl (List.cons.inj hargs).1

/-- The rule concerns entry methods and traversals only. -/
theorem sheltered_of_ne {v : Value} {msg : Message} {args : List Value} (he : ∀ e, msg ≠ .entry e)
    (ha : msg ≠ .accept) (σ : Moment ε κ) : sheltered F X m (.send v msg args) σ := by
  refine ⟨?_, ?_⟩
  · rintro v' e args' heq
    exact absurd (Call.send.inj heq).2.1 (he e)
  · rintro r visitor heq
    exact absurd (Call.send.inj heq).2.1 ha

theorem sparesLists_sheltered : Recorder.SparesLists (sheltered F X m) := by
  intro l msg args σ he
  refine ⟨?_, ?_⟩
  · rintro v' e args' heq
    exact absurd (Call.send.inj heq).2.1 (he e)
  · rintro r visitor heq
    cases (Call.send.inj heq).1

theorem calm_sheltered : (alone (body F X.thread)).Calm F X.thread (sheltered F X m) where
  move _ := rfl
  body _ _ := rfl
  rule c σ hc := by
    unfold Call.asks at hc
    split at hc
    case h_4 => cases hc
    all_goals exact sheltered_of_ne (by simp) (by simp) σ

theorem sheltered_of_isHandle (c : Call κ) (σ : Moment ε κ) (hc : c.isHandle = true) :
    sheltered F X m c σ := by
  unfold Call.isHandle at hc
  split at hc
  · exact sheltered_of_ne (by simp) (by simp) σ
  · cases hc

end Sheltered

section Attempts

variable {F : Foreign (List Callback) κ} {X : Cast} {m : PolicyBody} {E : Ref .list → Prop}
  {N : Ref .node → Prop} {σ : Moment (List Callback) κ} {history : List Callback}

/-- One attempt is answered, if one is made. -/
theorem tryOne_yields (hm : m = .record ∨ m = .reject) (hpoliced : σ.world.Policed m E N)
    {r : Ref .node} (hr : N r) (visitor : Value)
    (hknown : history.any (·.2.isAbout r) = true → σ.world.isGuarded (.node r) = true)
    (hσ : σ.window = .open) :
    (alone (body F X.thread)).Yields (sheltered F X m) σ (tryOne history r visitor)
      fun res σ' => res = .ok () ∧ Strays E σ σ' ∧ σ'.world.foreign = σ.world.foreign := by
  let σ₁ := σ.stepped σ.world
  have h₁ : Strays E σ σ₁ :=
    ⟨.refl E _, by simp [σ₁, Moment.stepped, hσ, Window.next], .of_calls rfl⟩
  refine .bind (alone_look rfl ?_)
  simp only
  split
  case isFalse => exact .pure ⟨rfl, h₁, rfl⟩
  case isTrue hmay =>
    rw [Bool.and_eq_true, Option.isNone_iff_eq_none, Bool.or_eq_true] at hmay
    obtain ⟨hvisitor, hnode⟩ := hmay
    have hguarded : σ.world.isGuarded (.node r) = true := hnode.elim hknown id
    let c : Call κ := .send (.node r) .accept [visitor]
    have hyields := attempt_yields (F := F) (t := X.thread) (R := sheltered F X m)
      (σ := σ₁.calling c) hm calm_sheltered sparesLists_sheltered sheltered_of_isHandle hpoliced hr
      hguarded hvisitor
    have hrule : sheltered F X m c σ₁ := by
      refine ⟨fun v e args heq => by simp [c] at heq, ?_⟩
      rintro r' visitor' heq
      obtain ⟨rfl, rfl⟩ : r = r' ∧ visitor = visitor' := by simpa [c] using heq
      obtain ⟨o, σ', hruns, -, hanswered, -⟩ := hyields
      exact .inr ⟨o, σ', hruns, hanswered⟩
    refine .bind (.outcome (.invoke rfl hrule (hyields.mono ?_)))
    rintro o σ₂ ⟨hanswered, hbeside, hforeign, hturns⟩
    have h₂ : Strays E σ σ₂.returned :=
      ⟨hbeside, rfl, (Moment.Turns.of_call (c := c) rfl rfl).trans hturns⟩
    cases hanswered with
    | recorded | rejected => exact .pure ⟨rfl, h₂, hforeign⟩

/-- **Attempts at nodes that are known to be guarded are answered**, and nothing else happens. -/
theorem tryAll_yields (hm : m = .record ∨ m = .reject) :
    ∀ (l : List (Ref .node × Value)) {σ : Moment (List Callback) κ},
      σ.world.Policed m E N → (∀ p ∈ l, N p.1) →
      (∀ r, N r → history.any (·.2.isAbout r) = true → σ.world.isGuarded (.node r) = true) →
      σ.window = .open →
      (alone (body F X.thread)).Yields (sheltered F X m) σ (tryAll history l)
        fun res σ' => res = .ok () ∧ Strays E σ σ' ∧ σ'.world.foreign = σ.world.foreign
  | [], σ, _, _, _, hσ => .pure ⟨rfl, .refl hσ, rfl⟩
  | (r, visitor) :: rest, σ, hpoliced, hnodes, hknown, hσ => by
    have hr : N r := hnodes (r, visitor) (by simp)
    refine .bind ((tryOne_yields hm hpoliced hr visitor (hknown r hr) hσ).mono ?_)
    rintro res σ₁ ⟨rfl, h₁, hforeign⟩
    have hguarded : ∀ r, N r → history.any (·.2.isAbout r) = true →
        σ₁.world.isGuarded (.node r) = true := fun r' hr' hh =>
      (World.isGuarded_of_nodes h₁.beside.sameNodes r').trans (hknown r' hr' hh)
    refine (tryAll_yields hm rest (h₁.beside.policed hpoliced)
      (fun p hp => hnodes p (by simp [hp])) hguarded h₁.window).mono ?_
    rintro res σ' ⟨rfl, h', hforeign'⟩
    exact ⟨rfl, h₁.trans h', hforeign'.trans hforeign⟩

end Attempts

end Walk

end GuardedWalk
