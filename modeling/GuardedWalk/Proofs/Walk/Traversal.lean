import GuardedWalk.Proofs.Walk.Announcing

/-!
# A node is asked for its traversal

A node hands its parts on to the walker of the walk, no matter whether a guard has been put on it,
which one answers for it, and what happens to its marks once the walk has found out. It does so in
the way that its class defines, or in one of its own if it has been given one, or something else is
called that the node shows in place of either.

## Main definitions

* `GuardedWalk.Walk.ownWay` — how a node is traversed that no guard hides.
* `GuardedWalk.Walk.shownWay` — the same, whatever the node shows.

## Main results

* `GuardedWalk.Setting.Going.canonical` — the walker may traverse guarded nodes.
* `GuardedWalk.Setting.Going.accept` — what becomes of the walker at a node.
* `GuardedWalk.Setting.Delivers.accept` — a node that is asked for its traversal tells what the
  traversal tells.
-/

set_option autoImplicit false

namespace GuardedWalk

/-- How a node is traversed that no guard hides: in its own way, or as its class says if it has
none. -/
def Walk.ownWay {ε κ : Type} (F : Foreign ε κ) (t : Thread) (r : Ref .node) (visitor : Value) :
    Option (Ref .node) → Walk.Steps ε κ Value
  | none => Walk.traverse F t r visitor
  | some n => F.accept t true n visitor

/-- What becomes of a visitor at a node that no guard hides: the node is traversed as its class
says, or what it shows instead is called. -/
def Walk.shownWay {ε κ : Type} (F : Foreign ε κ) (t : Thread) (r : Ref .node) (visitor : Value) :
    Option Value → Walk.Steps ε κ Value
  | none => Walk.traverse F t r visitor
  | some x => Walk.call F t x [visitor]

/-- What a wrapper hides can be taken note of. -/
theorem World.Covers.pin {ε : Type} {w : World ε} {r : Ref .node} {way : Option Value}
    {inner : Value} (h : w.Covers r way inner) {g : Ref .guard} (hg : w.Unhidden (.guard g)) :
    ∃ p : Pin, p.Holds w ∧ ∀ w' : World ε, p.Holds w' → w'.Covers r way inner := by
  cases way with
  | none => exact ⟨.hides r none inner, h, fun _ h' => h'⟩
  | some x => exact ⟨.guard g, hg, fun _ _ => h⟩

namespace Setting

open Walk (Steps)

variable {ε κ : Type} {Z : Setting ε κ} {F : Foreign ε κ} {S : Surroundings ε κ}
  {pins : List Pin} {h : Hold} {L told : List (Occasion κ)} {σ : Moment ε κ}

/-! ## The walker may traverse guarded nodes -/

theorem member_session {s : Ref .session} {n : Nat} {w : World ε}
    (hw : Z.Scene pins (.owned s n) w) :
    w.member (.token Z.cast.token) "session" = .ok (.value (.session s)) :=
  World.member_session_of_carried (World.get?_of_ownValue (ownValue_session hw) (by simp))

/-- The walker may traverse guarded nodes while its walk is in flight. -/
theorem Going.canonical {s : Ref .session} {n : Nat} (hg : Z.Going pins (.owned s n) L σ)
    (hZ : Z.Hosts F S) {Q : Except Failure Value → Moment ε κ → Prop}
    (hQ : ∀ σ', Z.Going pins (.owned s n) L σ' → Q (.ok (.bool true)) σ') :
    S.Yields Z.rule σ (Walk.canonical (.walker Z.cast.walker)) Q := by
  refine .bind (hg.read hZ.toBears fun w σ₁ hw hg₁ => ?_)
  simp only [hw.assembled.shownGuard?_eq]
  have htoken : ∀ w, Z.Scene pins (.owned s n) w →
      w.ownValue (.guard Z.cast.guard) Guard.ownershipField = .token Z.cast.token :=
    fun w hw => World.ownValue_of_carried hw.assembled.guardToken
  refine .bind (hg₁.own hZ.toBears htoken fun σ₂ hg₂ => ?_)
  refine .bind (hg₂.readAttr hZ.toBears (fun w hw => member_session hw) fun σ₃ hg₃ => ?_)
  refine .bind (hg₃.own hZ.toBears htoken fun σ₄ hg₄ => ?_)
  refine hg₄.method hZ.toBears rfl (by simp) rfl (fun w hw => scene_token hw rfl)
    (fun w => rfl) fun σ₅ hg₅ => ?_
  refine .bind (hg₅.step hZ fun w hw _ => ⟨pins, .owned s n, ?_⟩)
  obtain ⟨x, hx, -, ⟨u, ho, hu⟩, -⟩ := hw.held.shows
  rw [Ownership.isOwned_run hx Z.cast.thread, ho]
  refine ⟨hw, .refl _ w, fun σ₆ hg₆ => ?_⟩
  simp only [Option.any_some, hu, decide_true]
  exact .pure (hQ _ hg₆.returned)

/-! ## A guard is asked -/

theorem Going.unpins (ps : List Pin) (hg : Z.Going (ps ++ pins) h L σ) : Z.Going pins h L σ := by
  induction ps with
  | nil => exact hg
  | cons p rest ih => exact ih hg.unpin

theorem accept_problem (w : World ε) (r : Ref .node) :
    w.argumentProblem? (.node r) .accept 1 = none := by
  simp only [World.argumentProblem?, World.parametersOf]
  split <;> rfl

/-- What the wrapper of a node hides is what becomes of visitors at the node. -/
theorem Going.covered (hg : Z.Going pins h L σ) (hZ : Z.Bears F S) {r : Ref .node}
    {way : Option Value} {inner : Value} (hcovers : ∀ w, Z.Scene pins h w → w.Covers r way inner)
    {Q : Outcome → Moment ε κ → Prop}
    (hb : ∀ σ', Z.Going pins h L σ' →
      S.Yields Z.rule σ' (Walk.shownWay F Z.cast.thread r (.walker Z.cast.walker) way) fun o σ₁ =>
        Q o σ₁.returned) :
    S.Yields Z.rule σ (Walk.apply inner [.walker Z.cast.walker]) Q := by
  refine hg.call hZ rfl rfl fun σ₁ hg₁ => ?_
  cases way with
  | some x =>
    obtain rfl : inner = x := hcovers _ hg.scene
    exact hb σ₁ hg₁
  | none =>
    obtain ⟨m, rfl, -⟩ := hcovers _ hg.scene
    refine .bind (hg₁.read hZ fun w σ₂ hw hg₂ => ?_)
    obtain ⟨m', hm', -, hget⟩ := hcovers w hw
    obtain rfl := Value.method.inj hm'
    simp only [hget]
    refine .bind (hg₂.read hZ fun w σ₃ _ hg₃ => ?_)
    simp only [List.length_cons, List.length_nil, Nat.zero_add, accept_problem]
    exact hb σ₃ hg₃

/-- The guard of a node hands the walker on to what the wrapper hides. -/
theorem Going.dispatched {s : Ref .session} {n : Nat} (hg : Z.Going pins (.owned s n) L σ)
    (hZ : Z.Hosts F S) {g : Ref .guard} {node inner : Value} (hguard : .guard g ∈ pins)
    {Q : Outcome → Moment ε κ → Prop}
    (hb : ∀ σ', Z.Going pins (.owned s n) L σ' →
      S.Yields Z.rule σ' (Walk.apply inner [.walker Z.cast.walker]) Q) :
    S.Yields Z.rule σ (Walk.body F Z.cast.thread
      (.send (.guard g) .dispatch [node, inner, .walker Z.cast.walker])) Q := by
  refine hg.delivered hZ.toBears (by simp) rfl (fun w hw => ⟨rfl, hw.pinned _ hguard⟩)
    (fun w => rfl)
    fun σ₁ hg₁ => ?_
  refine .bind (hg₁.call hZ.toBears rfl rfl fun σ₂ hg₂ => ?_)
  -- the question itself needs no object, so it is answered by a function
  refine .bind (hg₂.look hZ.toBears (r := .ok (.function .isCanonical)) (fun w hw => ?_)
    fun σ₃ hg₃ => ?_)
  · exact World.member_of_understands (v := .guard g) (m := .isCanonical) rfl
      (hw.pinned _ hguard .isCanonical (by simp))
  refine .bind (hg₃.read hZ.toBears fun w σ₄ _ hg₄ => ?_)
  refine hg₄.canonical hZ fun σ₅ hg₅ => ?_
  refine .bind (hg₅.returned.look hZ.toBears (r := .ok true) (fun w _ => rfl) fun σ₆ hg₆ => ?_)
  exact hb σ₆ hg₆

/-! ## Nodes -/

/-- While the guard of a node is about to be asked, a step finds the world as the last one has left
it. -/
theorem joined_look {α : Type} (hj : σ.window = .joined) {f : World ε → Except Failure α}
    {Q : Except Failure α → Moment ε κ → Prop} (hQ : Q (f σ.world) (σ.stepped σ.world)) :
    S.Yields Z.rule σ (Routine.examine f) Q := by
  have hb : S.before σ = σ.world := by simp [Surroundings.before, hj]
  refine .atomically ?_
  rw [hb]
  exact hQ

theorem joined_stepped (hj : σ.window = .joined) : (σ.stepped σ.world).window = .joined := by
  simp [Moment.stepped, hj, Window.next]

/-- A wrapper asks the guard that answers for the node. -/
theorem yields_wrapper {s : Ref .session} {n : Nat} (hZ : Z.Hosts F S) {x : Ref .wrapper}
    {g : Ref .guard} {inner : Value} {r : Ref .node} {way : Option Value}
    (hscene : Z.Scene pins (.owned s n) σ.world) (hinv : Z.inv σ.world L)
    (hheard : Z.cast.occasions σ.calls = L.filter Occasion.isCall) (hj : σ.window = .joined)
    (hcontent : (σ.world.wrappers.get x).content = (.node r, inner))
    (htag : σ.world.member (.node r) Node.guardField = .ok (.value (.guard g)))
    (hguard : σ.world.Unhidden (.guard g)) (hcovers : σ.world.Covers r way inner)
    {Q : Outcome → Moment ε κ → Prop} (hQ : ∀ o σ, Q o σ → Q o σ.returned)
    (hb : ∀ ps σ', Z.Going (ps ++ pins) (.owned s n) L σ' →
      S.Yields Z.rule σ' (Walk.shownWay F Z.cast.thread r (.walker Z.cast.walker) way) Q) :
    S.Yields Z.rule σ (Walk.call F Z.cast.thread (.wrapper x) [.walker Z.cast.walker]) Q := by
  obtain ⟨hnode, hinner⟩ := Prod.mk.inj hcontent
  refine .bind (.bind (joined_look (f := fun w => .ok (w.fullName (.wrapper x))) hj ?_))
  have hj₁ := joined_stepped hj
  refine .pure (.bind (joined_look (f := fun w => .ok (w.wrappers.get x)) hj₁ ?_))
  have hj₂ := joined_stepped hj₁
  simp only [Moment.stepped] at hj₂
  simp only [Moment.stepped, hnode, hinner]
  have hread : (Act.read (.node r) Node.guardField).run σ.world =
      (.ok (.guard g), σ.world) := Act.read_run htag
  refine .bind (.atomically ?_)
  simp only [Surroundings.before, hj₂, if_true]
  rw [hread]
  obtain ⟨p, hp, hcovers⟩ := hcovers.pin hguard
  have hpins : Z.Scene (p :: .guard g :: pins) (.owned s n) σ.world :=
    (Scene.pin (p := .guard g) hscene hguard).pin hp
  let c : Call κ := .send (.guard g) .dispatch [.node r, inner, .walker Z.cast.walker]
  have hown : Z.cast.isOwn c = true := rfl
  have hcalls : Z.cast.occasions (σ.calls ++ [c]) = L.filter Occasion.isCall := by
    rw [← hheard]
    simp [Cast.occasions, Cast.occasion?_of_isOwn hown]
  refine .invoke (hZ.body c hown) (hZ.own c _ hown) ?_
  refine Going.dispatched (g := g) (?_ : Z.Going (p :: .guard g :: pins) (.owned s n) L _) hZ
    (by simp) fun σ₁ hg₁ => ?_
  · exact ⟨hpins, hinv, hcalls, rfl⟩
  refine hg₁.covered hZ.toBears (fun w hw => hcovers w (hw.pinned p List.mem_cons_self))
    fun σ₂ hg₂ => ?_
  exact (hb [p, .guard g] σ₂ hg₂).mono fun o σ₃ hq => hQ _ _ (hQ _ _ hq)

theorem isGuarded_eq {w : World ε} {v : Value} :
    w.isGuarded v = ((w.carried v).get? Node.guardField).isSome := rfl

/-- A node is asked for its traversal. Others may act until it is found out what the node shows, and
after that unless its guard is about to be asked. -/
theorem Going.asked (hg : Z.Going pins h L σ) (hZ : Z.Bears F S) {r : Ref .node}
    {Q : Outcome → Moment ε κ → Prop}
    (hb : ∀ σ', Z.Scene pins h σ'.world → Z.inv σ'.world L →
      Z.cast.occasions σ'.calls = L.filter Occasion.isCall →
      σ'.window = (if σ'.world.isGuarded (.node r) then .joined else .open) →
      (σ'.world.member (.node r) Message.accept.name = .ok (.bound .accept) ∧
        S.Yields Z.rule σ' (Walk.run F Z.cast.thread (.node r) .accept [.walker Z.cast.walker])
          fun o σ₁ => Q o σ₁.returned) ∨
      ∃ y, σ'.world.member (.node r) Message.accept.name = .ok (.value y) ∧
        S.Yields Z.rule σ' (Walk.call F Z.cast.thread y [.walker Z.cast.walker])
          fun o σ₁ => Q o σ₁.returned) :
    S.Yields Z.rule σ (Walk.send (.node r) .accept [.walker Z.cast.walker]) Q := by
  let c : Call κ := .send (.node r) .accept [.walker Z.cast.walker]
  have hown : Z.cast.isOwn c = true := by simp [c, Cast.isOwn]
  have hheard : Z.cast.occasions (σ.calling c).calls = L.filter Occasion.isCall := by
    rw [← hg.heard]
    simp [Moment.calling, Cast.occasions, Cast.occasion?_of_isOwn hown]
  refine .invoke (c := c) (hZ.body c hown) (hZ.own c σ hown) ?_
  have hb' : S.before (σ.calling c) = S.move (σ.calling c) := by
    simp [Surroundings.before, Moment.calling, c, Window.ofCall]
  obtain ⟨hscene, hinv⟩ := hZ.move pins _ (σ.calling c) L hg.scene hg.inv
  refine .bind (.atomically ?_)
  rw [hb']
  have hwindow : ((σ.calling c).stepped (S.move (σ.calling c))).window =
      if (S.move (σ.calling c)).isGuarded (.node r) then .joined else .open := by
    simp [Moment.stepped, Moment.calling, c, Window.ofCall, Window.next]
  rcases hb ((σ.calling c).stepped (S.move (σ.calling c))) hscene hinv hheard hwindow with
    ⟨hm, hrest⟩ | ⟨y, hm, hrest⟩
  · simp only [Moment.stepped] at hm
    simp only [hm]
    exact hrest
  · simp only [Moment.stepped] at hm
    simp only [hm]
    exact hrest

/-- **What becomes of the walker at a node**: it comes to what the node shows to visitors if it is
not guarded, however the node is guarded. -/
theorem Going.accept {s : Ref .session} {n : Nat} (hg : Z.Going pins (.owned s n) L σ)
    (hZ : Z.Hosts F S) {r : Ref .node} {way : Option Value}
    (hgreets : ∀ w, Z.Scene pins (.owned s n) w → Z.inv w L → w.Greets r way)
    {Q : Outcome → Moment ε κ → Prop} (hQ : ∀ o σ, Q o σ → Q o σ.returned)
    (hb : ∀ ps σ', Z.Going (ps ++ pins) (.owned s n) L σ' →
      S.Yields Z.rule σ' (Walk.shownWay F Z.cast.thread r (.walker Z.cast.walker) way) Q) :
    S.Yields Z.rule σ (Walk.send (.node r) .accept [.walker Z.cast.walker]) Q := by
  refine hg.asked hZ.toBears fun σ₁ hscene hinv hheard hwindow => ?_
  have hm := hgreets _ hscene hinv
  rcases hm.marks with ⟨accept, tag⟩ | ⟨x, g, inner, accept, tag, -, content, covers, unhidden⟩
  · rw [isGuarded_eq, tag] at hwindow
    have hg₁ : Z.Going pins (.owned s n) L σ₁ := ⟨hscene, hinv, hheard, hwindow⟩
    cases way with
    | none =>
      refine .inl ⟨World.member_of_understands (hm.usual rfl) accept, ?_⟩
      refine .bind (hg₁.read hZ.toBears fun w' σ₂ _ hg₂ => ?_)
      simp only [List.length_cons, List.length_nil, Nat.zero_add, accept_problem]
      exact (hb [] σ₂ hg₂).mono hQ
    | some y => exact .inr ⟨y, World.member_of_carried rfl accept, (hb [] _ hg₁).mono hQ⟩
  · rw [isGuarded_eq, tag] at hwindow
    refine .inr ⟨.wrapper x, World.member_of_carried rfl accept, ?_⟩
    exact (yields_wrapper hZ hscene hinv hheard hwindow content
      (World.member_of_carried rfl tag) unhidden covers hQ hb).mono hQ

/-- A node with a traversal of its own is traversed in that way. -/
theorem Delivers.shownWay (hZ : Z.Bears F S) {r : Ref .node} {own : Option (Ref .node)}
    (ht : Z.Delivers S pins h
      (Walk.ownWay F Z.cast.thread r (.walker Z.cast.walker) own) told) :
    Z.Delivers S pins h (Walk.shownWay F Z.cast.thread r (.walker Z.cast.walker)
      (own.map .ownAccept)) told := by
  cases own with
  | none => exact ht
  | some n =>
    intro L σ hg
    refine .bind (.bind (hg.read hZ fun w σ₁ _ hg₁ => ?_))
    exact .pure (ht L σ₁ hg₁)

/-- A node that is asked for its traversal tells what the traversal tells, if the marks of the node
belong together throughout the walk. -/
theorem Delivers.accept {s : Ref .session} {n : Nat} (hZ : Z.Hosts F S) {r : Ref .node}
    {own : Option (Ref .node)} (hmarked : ∀ pins h w, Z.Scene pins h w → w.Marked r own)
    (ht : ∀ pins, Z.Delivers S pins (.owned s n)
      (Walk.ownWay F Z.cast.thread r (.walker Z.cast.walker) own) told) :
    Z.Delivers S pins (.owned s n) (Walk.send (.node r) .accept [.walker Z.cast.walker]) told := by
  intro L σ hg
  refine hg.accept hZ (fun w hw _ => World.marked_iff_greets.1 (hmarked _ _ w hw))
    (fun _ _ hq => ⟨hq.1.returned, hq.2⟩) fun ps σ₁ hg₁ => ?_
  exact Tells.mono (Delivers.shownWay hZ.toBears (ht _) L σ₁ hg₁) fun _ _ hg₂ => hg₂.unpins ps

end Setting

end GuardedWalk
