import GuardedWalk.Proofs.Ownership.Token
import GuardedWalk.Proofs.Run.Surroundings
import GuardedWalk.Proofs.World.Guarding
import GuardedWalk.Walk

/-!
# A guard is asked

The wrapper of a guarded node asks the guard that answers for the node, and the guard asks for the
guard that the visitor shows. Nothing happens on the way except that guards and tokens are called
and that something may be logged. In the end the visitor is handed on to what the wrapper hides, or
the policy of the guard is called.

## Main definitions

* `GuardedWalk.Call.asks` — calls with which guards and tokens are asked.
* `GuardedWalk.Surroundings.Calm` — surroundings in which guards and tokens can be asked in peace.
* `GuardedWalk.World.GuardedBy` — a guard answers for a value, and it is known what a wrapper hides.
* `GuardedWalk.World.Entitles` — a visitor may traverse guarded nodes on a thread.

## Main results

* `GuardedWalk.Surroundings.Calm.canonical` — what becomes of the question whether a visitor may
  traverse guarded nodes.
* `GuardedWalk.Surroundings.Calm.accept` — what becomes of a visitor at a guarded node.
-/

set_option autoImplicit false

namespace GuardedWalk

variable {ε κ : Type}

/-- Whether a guard or a token is asked something about a visitor. -/
def Call.asks : Call κ → Bool
  | send _ .dispatch _ | send _ .isCanonical _ | send _ .isOwned _ => true
  | _ => false

/-- Since a moment nothing has been called but guards and tokens that were asked; the world is
known.
-/
structure Moment.Asked (σ₀ : Moment ε κ) (w : World ε) (σ : Moment ε κ) : Prop where
  world : σ.world = w
  calls : ∃ l, σ.calls = σ₀.calls ++ l ∧ ∀ c ∈ l, c.asks = true

namespace Moment.Asked

variable {σ₀ σ : Moment ε κ} {w : World ε}

theorem refl (σ : Moment ε κ) : σ.Asked σ.world σ := ⟨rfl, [], by simp⟩

theorem stepped (h : σ₀.Asked w σ) (w' : World ε) : σ₀.Asked w' (σ.stepped w') := ⟨rfl, h.calls⟩

theorem returned (h : σ₀.Asked w σ) : σ₀.Asked w σ.returned := ⟨h.world, h.calls⟩

theorem calling (h : σ₀.Asked w σ) {c : Call κ} (hc : c.asks = true) :
    σ₀.Asked w (σ.calling c) := by
  obtain ⟨l, hl, hasks⟩ := h.calls
  refine ⟨h.world, l ++ [c], by simp [Moment.calling, hl], fun c' hc' => ?_⟩
  rcases List.mem_append.1 hc' with hc' | hc'
  · exact hasks c' hc'
  · rw [List.mem_singleton.1 hc', hc]

end Moment.Asked

namespace World

/-- A guard answers for a value: the value carries a wrapper that was made for it. -/
structure GuardedBy (w : World ε) (v : Value) (g : Ref .guard) (inner : Value) : Prop where
  accept : ∃ x, (w.carried v).get? Node.acceptField = some (.wrapper x) ∧
    (w.wrappers.get x).content = (v, inner)
  tag : w.tag? v = some (.guard g)

/-- A guard has a token, and the token keeps what a view says. -/
structure Holds (w : World ε) (g : Ref .guard) (k : Ref .token) (x : Ownership.View) : Prop where
  token : w.ownValue (.guard g) Guard.ownershipField = .token k
  unhidden : w.Unhidden (.token k)
  session : ((w.carried (.token k)).get? Token.sessionField).isSome
  shows : Ownership.Shows w k x

end World

/-- No other thread than this one holds a token. -/
def Ownership.View.IsFree (x : Ownership.View) (t : Thread) : Prop :=
  ∀ o, x.owner = some o → o.2.id = t.id

namespace World

/-- A visitor may traverse guarded nodes on a thread: it shows a guard of its own, whose token is
idle or held by the thread. -/
def Entitles (w : World ε) (t : Thread) (visitor : Value) : Prop :=
  ∃ g k x, w.shownGuard? visitor = some g ∧ w.Holds g k x ∧ x.IsFree t

/-- The guard that a visitor shows as its own has a token, if there is such a guard. -/
def Settled (w : World ε) (visitor : Value) : Prop :=
  ∀ g, w.shownGuard? visitor = some g → ∃ k x, w.Holds g k x

/-- What is logged about a visitor that is turned away. -/
def noticed (w : World ε) (t : Thread) (g : Ref .guard) (node visitor : Value) : World ε :=
  match w.isTrue (w.ownValue (.guard g) Guard.quietField) with
  | .ok true => w
  | _ => w.say .warning .guard (w.attempt t node visitor).warning

variable {w : World ε} {t : Thread} {g : Ref .guard} {k : Ref .token} {x : Ownership.View}
  {visitor : Value}

theorem noticed_eq (w : World ε) (t : Thread) (g : Ref .guard) (node visitor : Value) :
    ∃ j, w.noticed t g node visitor = { w with journal := j } := by
  unfold noticed
  split
  · exact ⟨w.journal, rfl⟩
  · obtain ⟨j, hj⟩ := w.log_eq .warning .guard (w.attempt t node visitor).warning
    exact ⟨j, by rw [say, hj]⟩

theorem Holds.member_session (h : w.Holds g k x) :
    w.member (.token k) "session" = .ok (.value (Ownership.sessionOf x.owner)) := by
  obtain ⟨y, hy⟩ := Option.isSome_iff_exists.1 h.session
  have hs := (ownValue_of_carried hy).symm.trans h.shows.session
  subst hs
  exact member_session_of_carried hy

/-- Whether a visitor is entitled can be read from the token of the guard that it shows. -/
theorem Holds.entitles_iff (h : w.Holds g k x) (hg : w.shownGuard? visitor = some g) :
    w.Entitles t visitor ↔ x.IsFree t := by
  constructor
  · rintro ⟨g', k', x', hg', h', hx'⟩
    obtain rfl := Option.some.inj (hg.symm.trans hg')
    obtain rfl := Value.token.inj (h.token.symm.trans h'.token)
    rintro ⟨s, u⟩ ho
    have hs : Ownership.sessionOf x.owner = Ownership.sessionOf x'.owner :=
      h.shows.session.symm.trans h'.shows.session
    cases ho' : x'.owner with
    | none =>
      rw [ho, ho'] at hs
      cases hs
    | some o =>
      obtain ⟨s', u'⟩ := o
      rw [ho, ho'] at hs
      obtain rfl : s = s' := Value.session.inj hs
      have hn := (h.shows.runs _ _ ho).number_injective (h'.shows.runs _ _ ho')
      have hid := congrArg Thread.idOf? hn
      rw [Thread.idOf?_number, Thread.idOf?_number] at hid
      exact (Option.some.inj hid).trans (hx' _ ho')
  · exact fun hx => ⟨g, k, x, hg, h, hx⟩

theorem not_entitles_of_none (hg : w.shownGuard? visitor = none) : ¬ w.Entitles t visitor := by
  rintro ⟨g, k, x, hg', -⟩
  simp [hg] at hg'

end World

/-! ## Questions in peace -/

/-- Nothing happens between the steps of a program, and guards and tokens are asked as usual, which
a rule allows. -/
structure Surroundings.Calm (F : Foreign ε κ) (t : Thread) (R : Surroundings.Rule ε κ)
    (S : Surroundings ε κ) : Prop where
  move : ∀ σ, S.move σ = σ.world
  body : ∀ c : Call κ, c.asks = true → S.body c = some (Walk.body F t c)
  rule : ∀ (c : Call κ) σ, c.asks = true → R c σ

/-- Nothing happens between the steps of a thread that is alone. -/
theorem Surroundings.calm_alone (F : Foreign ε κ) (t : Thread) :
    (Surroundings.alone (Walk.body F t)).Calm F t (.free ε κ) where
  move _ := rfl
  body _ _ := rfl
  rule _ _ _ := trivial

namespace Surroundings.Calm

open Walk (Steps)

variable {α : Type} {F : Foreign ε κ} {t : Thread} {R : Rule ε κ} {S : Surroundings ε κ}
  {σ₀ σ : Moment ε κ} {w w' : World ε} {v visitor : Value} {g : Ref .guard}

theorem before (hS : S.Calm F t R) (ha : σ₀.Asked w σ) : S.before σ = w := by
  simp [Surroundings.before, hS.move, ha.world]

theorem step (hS : S.Calm F t R) (ha : σ₀.Asked w σ)
    {change : World ε → Except Failure α × World ε} {r : Except Failure α}
    {Q : Except Failure α → Moment ε κ → Prop} (h : change w = (r, w'))
    (hQ : ∀ σ', σ₀.Asked w' σ' → Q r σ') : S.Yields R σ (Routine.atomically change) Q := by
  refine .atomically ?_
  rw [hS.before ha, h]
  exact hQ _ (ha.stepped w')

theorem look (hS : S.Calm F t R) (ha : σ₀.Asked w σ) {f : World ε → Except Failure α}
    {r : Except Failure α} {Q : Except Failure α → Moment ε κ → Prop} (h : f w = r)
    (hQ : ∀ σ', σ₀.Asked w σ' → Q r σ') : S.Yields R σ (Routine.examine f) Q :=
  hS.step ha (by rw [h]) hQ

theorem read (hS : S.Calm F t R) (ha : σ₀.Asked w σ) {f : World ε → α}
    {Q : Except Failure α → Moment ε κ → Prop} (hQ : ∀ σ', σ₀.Asked w σ' → Q (.ok (f w)) σ') :
    S.Yields R σ (Routine.read f) Q :=
  hS.step ha rfl hQ

theorem own (hS : S.Calm F t R) (ha : σ₀.Asked w σ) {name : String}
    {Q : Outcome → Moment ε κ → Prop}
    (hQ : ∀ σ', σ₀.Asked w σ' → Q (.ok (w.ownValue v name)) σ') :
    S.Yields R σ (Walk.own v name) Q :=
  hS.step ha (Act.run_own v name w) hQ

theorem readAttr (hS : S.Calm F t R) (ha : σ₀.Asked w σ) {x : Value} {name : String}
    {Q : Outcome → Moment ε κ → Prop} (hx : w.member v name = .ok (.value x))
    (hQ : ∀ σ', σ₀.Asked w σ' → Q (.ok x) σ') : S.Yields R σ (Walk.readAttr v name) Q :=
  hS.step ha (Act.read_run hx) hQ

theorem ask (hS : S.Calm F t R) (ha : σ₀.Asked w σ) {c : Call κ} (hc : c.asks = true)
    {Q : Outcome → Moment ε κ → Prop}
    (h : ∀ σ', σ₀.Asked w σ' → S.Yields R σ' (Walk.body F t c) fun o σ₁ => Q o σ₁.returned) :
    S.Yields R σ (Routine.invoke c) Q :=
  .invoke (hS.body c hc) (hS.rule c σ hc) (h _ (ha.calling hc))

/-- What a message comes to that is sent to an object that has a method for it and is given as many
arguments as it takes. -/
theorem delivered (hS : S.Calm F t R) (ha : σ₀.Asked w σ) {m : Message} {args : List Value}
    {Q : Outcome → Moment ε κ → Prop} (hu : w.understands v m = true)
    (hc : (w.carried v).get? m.name = none)
    (hp : w.argumentProblem? (if m.needsNoObject then .none else v) m args.length = none)
    (hb : ∀ σ', σ₀.Asked w σ' →
      S.Yields R σ' (Walk.answer F t (if m.needsNoObject then .none else v) m args) Q) :
    S.Yields R σ (Walk.body F t (.send v m args)) Q := by
  refine .bind (hS.look ha (World.member_of_understands hu hc) fun σ₁ h₁ => ?_)
  cases hm : m.needsNoObject with
  | true | false =>
    simp only [hm, if_true, if_false, Bool.false_eq_true] at hp hb ⊢
    refine .bind (hS.read h₁ fun σ₂ h₂ => ?_)
    simp only [hp]
    exact hb σ₂ h₂

/-! ## Visitors and their guards -/

/-- A token says whether the session in flight runs on the thread. -/
theorem isOwned (hS : S.Calm F t R) (ha : σ₀.Asked w σ) {k : Ref .token} {x : Ownership.View}
    (h : w.Holds g k x) {Q : Outcome → Moment ε κ → Prop}
    (hQ : ∀ σ', σ₀.Asked w σ' →
      Q (.ok (.bool (x.owner.any fun o => decide (o.2.id = t.id)))) σ') :
    S.Yields R σ (Walk.send (.token k) .isOwned []) Q := by
  refine hS.ask ha rfl fun σ₁ h₁ => hS.delivered h₁ rfl (h.unhidden _ (by simp)) rfl fun σ₂ h₂ => ?_
  exact .bind (hS.step h₂ (Ownership.isOwned_run h.shows t) fun σ₃ h₃ => .pure (hQ _ h₃.returned))

/-- **A visitor may traverse guarded nodes exactly if it is entitled to.** -/
theorem canonical (hS : S.Calm F t R) (ha : σ₀.Asked w σ) (hv : w.Settled visitor)
    {Q : Outcome → Moment ε κ → Prop}
    (hQ : ∀ b, (b = true ↔ w.Entitles t visitor) → ∀ σ', σ₀.Asked w σ' → Q (.ok (.bool b)) σ') :
    S.Yields R σ (Walk.canonical visitor) Q := by
  refine .bind (hS.read ha fun σ₁ h₁ => ?_)
  cases hg : w.shownGuard? visitor with
  | none => exact .pure (hQ _ (by simpa using World.not_entitles_of_none hg) _ h₁)
  | some g =>
    obtain ⟨k, x, h⟩ := hv g hg
    refine .bind (hS.own h₁ fun σ₂ h₂ => ?_)
    simp only [h.token]
    refine .bind (hS.readAttr h₂ h.member_session fun σ₃ h₃ => ?_)
    have hiff := h.entitles_iff (t := t) hg
    cases ho : x.owner with
    | none =>
      exact .pure (hQ _ (by simp [hiff, Ownership.View.IsFree, ho]) _ h₃)
    | some o =>
      refine .bind (hS.own h₃ fun σ₄ h₄ => ?_)
      simp only [h.token]
      refine hS.isOwned h₄ h (hQ _ ?_)
      simp [hiff, Ownership.View.IsFree, ho]

/-! ## Guarded values -/

/-- A guard that turns a visitor away says so, unless it is quiet, and has its policy answer. -/
theorem turnAway (hS : S.Calm F t R) (ha : σ₀.Asked w σ)
    (hq : ∃ b, w.isTrue (w.ownValue (.guard g) Guard.quietField) = .ok b) {node : Value}
    {Q : Outcome → Moment ε κ → Prop}
    (h : ∀ σ', σ₀.Asked (w.noticed t g node visitor) σ' →
      S.Yields R σ' (Walk.send (w.ownValue (.guard g) Guard.policyField) .handle [node, visitor])
        Q) :
    S.Yields R σ (do
      let quiet ← Walk.own (.guard g) Guard.quietField
      if !(← Routine.examine (·.isTrue quiet)) then
        Routine.change fun w => w.say .warning .guard (w.attempt t node visitor).warning
      Walk.send (← Walk.own (.guard g) Guard.policyField) .handle [node, visitor]) Q := by
  obtain ⟨quiet, hquiet⟩ := hq
  have hlast : ∀ σ', σ₀.Asked (w.noticed t g node visitor) σ' → S.Yields R σ'
      (Walk.own (.guard g) Guard.policyField >>= fun p => Walk.send p .handle [node, visitor])
      Q := by
    intro σ' h'
    refine .bind (hS.own h' fun σ'' h'' => ?_)
    have hsame : (w.noticed t g node visitor).ownValue (.guard g) Guard.policyField =
        w.ownValue (.guard g) Guard.policyField := by
      obtain ⟨j, hj⟩ := w.noticed_eq t g node visitor
      rw [hj]
      rfl
    rw [hsame]
    exact h σ'' h''
  refine .bind (hS.own ha fun σ₁ h₁ => ?_)
  refine .bind (hS.look h₁ hquiet fun σ₂ h₂ => ?_)
  cases quiet with
  | true =>
    have hsame : w.noticed t g node visitor = w := by simp [World.noticed, hquiet]
    exact hlast σ₂ (hsame.symm ▸ h₂)
  | false =>
    have hsay : w.noticed t g node visitor =
        w.say .warning .guard (w.attempt t node visitor).warning := by
      simp [World.noticed, hquiet]
    refine .bind (hS.step h₂ rfl fun σ₃ h₃ => ?_)
    exact hlast σ₃ (hsay.symm ▸ h₃)

/-- **A guard hands a visitor that is entitled on to what a wrapper hides, and has its policy answer
any other.** -/
theorem dispatch (hS : S.Calm F t R) (ha : σ₀.Asked w σ) (hv : w.Settled visitor)
    (hg : w.Unhidden (.guard g))
    (hq : ∃ b, w.isTrue (w.ownValue (.guard g) Guard.quietField) = .ok b) {node inner : Value}
    {Q : Outcome → Moment ε κ → Prop}
    (hmay : w.Entitles t visitor → ∀ σ', σ₀.Asked w σ' →
      S.Yields R σ' (Walk.apply inner [visitor]) Q)
    (hnot : ¬ w.Entitles t visitor → ∀ σ', σ₀.Asked (w.noticed t g node visitor) σ' →
      S.Yields R σ' (Walk.send (w.ownValue (.guard g) Guard.policyField) .handle [node, visitor])
        Q) :
    S.Yields R σ (Walk.body F t (.send (.guard g) .dispatch [node, inner, visitor])) Q := by
  refine hS.delivered ha rfl (hg _ (by simp)) rfl fun σ₁ h₁ => ?_
  refine .bind (hS.ask h₁ rfl fun σ₂ h₂ => ?_)
  refine hS.delivered h₂ rfl (hg _ (by simp)) rfl fun σ₃ h₃ => ?_
  refine hS.canonical h₃ hv fun b hb σ₄ h₄ => ?_
  refine .bind (hS.look h₄.returned (r := .ok b) rfl fun σ₅ h₅ => ?_)
  cases b with
  | true => exact hmay (hb.1 rfl) σ₅ h₅
  | false =>
    have hno : ¬ w.Entitles t visitor := fun h => by simpa using hb.2 h
    exact hS.turnAway h₅ hq (hnot hno)

/-- **What becomes of a visitor at a guarded node**: the guard that answers for it is asked, and
nobody else. -/
theorem accept (hS : S.Calm F t R) (ha : σ₀.Asked w σ) {inner : Value}
    (h : w.GuardedBy v g inner) (hne : ∀ r, v ≠ .exception r) {Q : Outcome → Moment ε κ → Prop}
    (hdispatch : ∀ σ', σ₀.Asked w σ' →
      S.Yields R σ' (Walk.body F t (.send (.guard g) .dispatch [v, inner, visitor]))
        fun o σ₁ => Q o σ₁.returned) :
    S.Yields R σ (Walk.body F t (.send v .accept [visitor])) Q := by
  obtain ⟨x, haccept, hcontent⟩ := h.accept
  obtain ⟨hnode, hinner⟩ := Prod.mk.inj hcontent
  have hmember : w.member v Message.accept.name = .ok (.value (.wrapper x)) :=
    World.member_of_carried (World.getter?_mark Node.acceptField_mem_marks hne) haccept
  have htag : w.member v Node.guardField = .ok (.value (.guard g)) :=
    World.member_of_carried (World.getter?_mark Node.guardField_mem_marks hne) h.tag
  refine .bind (hS.look ha hmember fun σ₁ h₁ => ?_)
  refine .bind (.bind (hS.read h₁ fun σ₂ h₂ => .pure ?_))
  refine .bind (hS.read h₂ fun σ₃ h₃ => ?_)
  simp only [hnode, hinner]
  refine .bind (hS.readAttr h₃ htag fun σ₄ h₄ => ?_)
  exact hS.ask h₄ rfl hdispatch

end Surroundings.Calm

end GuardedWalk
