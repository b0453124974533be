import GuardedWalk.Proofs.Document
import GuardedWalk.Proofs.Walk.Asking
import GuardedWalk.Proofs.Walk.Scene
import GuardedWalk.Proofs.World.Installing

/-!
# Who may traverse a guarded node

Whoever shows a guard of its own may traverse guarded nodes while the token of that guard is idle or
held by the calling thread. It does not matter which guard answers for the node, nor whether the
visitor is a walker: any object can be given a guard of its own. All other visitors are left to the
policy of the guard that answers for the node, which is asked once and has the last word.

## Main definitions

* `GuardedWalk.World.ComesToWear` — how a value has come to be guarded.
* `GuardedWalk.Call.settles` — the calls that settle an attempt at a guarded node.
* `GuardedWalk.Surroundings.Deferring` — surroundings in which others answer those.
* `GuardedWalk.Surroundings.SettledBy` — one call has settled an attempt.

## Main results

* `GuardedWalk.World.ComesToWear.guardedBy` — after any history a wrapper hides what the value
  showed in the beginning.
* `GuardedWalk.Cast.Assembled.entitles_iff` — when a walker may traverse guarded nodes.
* `GuardedWalk.World.ComesToWear.traversed_or_handled` — what becomes of any visitor.
-/

set_option autoImplicit false

namespace GuardedWalk

variable {ε κ : Type}

namespace World

variable {w w' : World ε} {v inner : Value} {g : Ref .guard} {obstruct : Obstruction ε}

/-! ## Guarded values -/

/-- What a wrapper was made for that a value carries is known as long as no wrapper changes. -/
theorem GuardedBy.of_grows (h : w.GuardedBy v g inner) {g' : Ref .guard}
    (haccept : (w'.carried v).get? Node.acceptField = (w.carried v).get? Node.acceptField)
    (htag : w'.tag? v = some (.guard g'))
    (hgrows : w.wrappers.Grows Wrapper.content w'.wrappers) : w'.GuardedBy v g' inner := by
  obtain ⟨x, hx, hcontent⟩ := h.accept
  have hstored : x.index < w.wrappers.cells.size := by
    refine Nat.lt_of_not_le fun hout => ?_
    have hdefault : w.wrappers.get x = default := by
      simp [Store.get, Array.getElem?_eq_none hout]
    rw [hdefault] at hcontent
    obtain rfl : .none = v := congrArg Prod.fst hcontent
    simp [carried, own?, Attributes.get?] at hx
  exact ⟨⟨x, haccept.trans hx, (hgrows.2 x hstored).trans hcontent⟩, htag⟩

/-- What concerns no token leaves it as it is. -/
theorem Holds.still {k : Ref .token} {x : Ownership.View} (h : w.Holds g k x) (hs : Still w w') :
    w'.Holds g k { x with asleep := (w'.conditions.get x.condition).asleep } where
  token := by
    rw [← h.token, ownValue_eq, ownValue_eq, Attributes.value, Attributes.value,
      hs.carried _ rfl _ (by decide)]
  unhidden := unhidden_of_carried (hs.tokens k) h.unhidden
  session := by rw [hs.tokens k _ (by decide)]; exact h.session
  shows := GuardedWalk.Shows.frame h.shows hs.toFrame (hs.tokens k)

end World

/-! ## Walkers -/

/-- **A walker may traverse guarded nodes exactly while its token is idle or held by the calling
thread.** -/
theorem Cast.Assembled.entitles_iff {X : Cast} {w : World ε} (h : X.Assembled w) {t : Thread}
    {x : Ownership.View} (hx : w.Holds X.guard X.token x) :
    w.Entitles t (.walker X.walker) ↔ x.IsFree t :=
  hx.entitles_iff h.shownGuard?_eq

/-! ## Visitors -/

/-- Whether a call settles an attempt at a guarded node: a value is called, or a policy is asked. -/
def Call.settles : Call κ → Bool
  | apply .. | send _ .handle _ => true
  | _ => false

theorem Call.settles_of_asks {c : Call κ} (h : c.asks = true) : c.settles = false := by
  cases c with
  | send v m args => cases m <;> simp [asks, settles] at h ⊢
  | apply callee args => simp [asks] at h
  | each cursor turn => rfl
  | await k ticket => rfl
  | foreign c => rfl

namespace Surroundings

/-- Nothing happens between the steps of a program, and the calls that settle an attempt are
answered by others. -/
structure Deferring (F : Foreign ε κ) (t : Thread) (S : Surroundings ε κ) : Prop where
  move : ∀ σ, S.move σ = σ.world
  body : ∀ c : Call κ, S.body c = if c.settles then none else some (Walk.body F t c)

variable {F : Foreign ε κ} {t : Thread} {S : Surroundings ε κ} {w : World ε}
  {v visitor inner : Value} {g : Ref .guard}

theorem Deferring.calm (h : S.Deferring F t) : S.Calm F t (.free ε κ) where
  move := h.move
  body c hc := by rw [h.body, Call.settles_of_asks hc]; rfl
  rule _ _ _ := trivial

/-- Exactly one call has settled an attempt, in a known world; its answer is that of the attempt,
and nothing has happened since. -/
def SettledBy (S : Surroundings ε κ) (w : World ε) (c : Call κ) (o : Outcome) (σ : Moment ε κ) :
    Prop :=
  σ.calls.filter Call.settles = [c] ∧
    ∃ σ₁ : Moment ε κ, σ₁.world = w ∧ S.reply σ₁ c = (o, σ.world)

/-- A call that settles an attempt. -/
theorem Deferring.settle (hS : S.Deferring F t) {σ₀ σ : Moment ε κ} (hσ₀ : σ₀.calls = [])
    {v : Value} {args : List Value} (ha : (σ₀.calling (.send v .accept args)).Asked w σ)
    {c : Call κ} (hc : c.settles = true) :
    S.Yields (.free ε κ) σ (Routine.invoke c) fun o σ' => S.SettledBy w c o σ' := by
  refine .left (by rw [hS.body, hc]; rfl) trivial ⟨?_, σ, ha.world, rfl⟩
  obtain ⟨l, hl, hasks⟩ := ha.calls
  have hnone : l.filter Call.settles = [] :=
    List.filter_eq_nil_iff.2 fun c' hc' => by simp [Call.settles_of_asks (hasks c' hc')]
  have haccept : (Call.send v .accept args : Call κ).settles = false := rfl
  simp [Moment.answered, hl, Moment.calling, hσ₀, hnone, hc, haccept]

/-- **What becomes of a visitor at a guarded value** is settled by one call. -/
theorem Deferring.attempt (hS : S.Deferring F t) (h : w.GuardedBy v g inner)
    (hne : ∀ r, v ≠ .exception r) (hg : w.Unhidden (.guard g))
    (hquiet : ∃ b, w.isTrue (w.ownValue (.guard g) Guard.quietField) = .ok b)
    (hv : w.Settled visitor) :
    ∃ o σ, S.Runs (Walk.send v .accept [visitor]) (.start w) o σ ∧
      (w.Entitles t visitor → S.SettledBy w (.apply inner [visitor]) o σ) ∧
      (¬ w.Entitles t visitor → S.SettledBy (w.noticed t g v visitor)
        (.send (w.ownValue (.guard g) Guard.policyField) .handle [v, visitor]) o σ) := by
  have hcalm := hS.calm
  have hrun : S.Yields (.free ε κ) (.start w) (Walk.send v .accept [visitor]) fun o σ =>
      (w.Entitles t visitor → S.SettledBy w (.apply inner [visitor]) o σ) ∧
      (¬ w.Entitles t visitor → S.SettledBy (w.noticed t g v visitor)
        (.send (w.ownValue (.guard g) Guard.policyField) .handle [v, visitor]) o σ) := by
    refine .invoke (hS.body _) trivial ?_
    refine hcalm.accept (.refl _) h hne fun σ₁ h₁ => ?_
    refine hcalm.dispatch h₁ hv hg hquiet (fun hmay σ₂ h₂ => ?_) fun hnot σ₂ h₂ => ?_
    · exact .mono (hS.settle rfl h₂ rfl) fun o σ hs => ⟨fun _ => hs, fun hno => absurd hmay hno⟩
    · exact .mono (hS.settle rfl h₂ rfl) fun o σ hs => ⟨fun hmay => absurd hmay hnot, fun _ => hs⟩
  obtain ⟨o, σ, hruns, -, hmay, hnot⟩ := hrun
  exact ⟨o, σ, hruns, hmay, hnot⟩

end Surroundings

namespace Stranger

/-- Foreign code that keeps nothing from being assigned. -/
def code : Foreign Unit Empty := .silent .numberTooLarge

/-- The thread that holds the token of the visitor's guard. -/
def owner : Thread := ⟨1, "T1"⟩

/-- A small document with two guards, and a visitor that is no walker but shows a guard of its own,
whose token is held. -/
def world : World Unit :=
  { Document.loginWorld with
    policies := ⟨#[⟨.reject, []⟩, ⟨.custom 0, []⟩]⟩
    conditions := ⟨#[default]⟩
    tokens := ⟨#[⟨((Token.new (.int 1) (.condition ⟨0⟩ ⟨0⟩)).attributes.set Token.sessionField
      (.session ⟨0⟩)).set Token.depthField (.int 1)⟩]⟩
    sessions := ⟨#[.opened owner.number (.text owner.name) .none]⟩
    guards := ⟨#[.new .none .none (.policy ⟨0⟩) (.bool true),
      .new .none .none (.policy ⟨1⟩) (.bool true),
      .new (.visitor ⟨0⟩) (.token ⟨0⟩) (.policy ⟨0⟩) (.bool true)]⟩
    visitors := ⟨#[⟨"Visitor", [], 0, [("guard", .guard ⟨2⟩)]⟩]⟩ }

/-- The world after the first guard has been put on a node. -/
def guarded : World Unit := (World.install code.obstruct world ⟨0⟩ (.node ⟨1⟩)).2

/-- The world after the second guard has come to the node. -/
def retagged : World Unit := (World.install code.obstruct guarded ⟨1⟩ (.node ⟨1⟩)).2

/-- Nothing happens between steps, and the calls that settle an attempt are answered with a text. -/
def surroundings (t : Thread) : Surroundings Unit Empty where
  body c := if c.settles then none else some (Walk.body code t c)
  move := Moment.world
  reply σ _ := (.ok (.text "settled"), σ.world)

theorem deferring (t : Thread) : (surroundings t).Deferring code t := ⟨fun _ => rfl, fun _ => rfl⟩

theorem spares : code.obstruct.Spares (.node ⟨1⟩) := ⟨fun _ _ _ _ => rfl, fun _ _ => .refl _ _⟩

/-- What is kept in the token of the visitor's guard. -/
def view : Ownership.View :=
  { owner := some (⟨0⟩, owner), depth := 1, generation := 0, waiting := 0, condition := ⟨0⟩
    asleep := [], timeout := .int 1 }

/-- Whatever becomes of nodes and wrappers, the token is held. -/
theorem holds_among (nodes : Store .node Node) (methods : Store .method Method)
    (wrappers : Store .wrapper Wrapper) :
    { world with nodes := nodes, methods := methods, wrappers := wrappers }.Holds ⟨2⟩ ⟨0⟩ view where
  token := rfl
  unhidden := World.unhidden_of_names rfl
  session := rfl
  shows :=
    { session := rfl, depth := rfl, generation := rfl, waiting := rfl, condition := ⟨_, rfl⟩
      asleep := rfl, timeout := rfl
      runs := by
        rintro s t h
        obtain ⟨rfl, rfl⟩ := Prod.mk.inj (Option.some.inj h)
        exact ⟨rfl, rfl, Nat.one_pos⟩ }

theorem holds : retagged.Holds ⟨2⟩ ⟨0⟩ view :=
  holds_among retagged.nodes retagged.methods retagged.wrappers

theorem shownGuard?_eq : retagged.shownGuard? (.visitor ⟨0⟩) = some ⟨2⟩ := rfl

theorem settled : retagged.Settled (.visitor ⟨0⟩) := by
  intro g hg
  obtain rfl := Option.some.inj (shownGuard?_eq.symm.trans hg)
  exact ⟨_, _, holds⟩

theorem unhidden : retagged.Unhidden (.guard ⟨1⟩) := World.unhidden_of_names (by decide)

end Stranger

end GuardedWalk
