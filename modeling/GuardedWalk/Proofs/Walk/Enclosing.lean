import GuardedWalk.Proofs.Walk.Admitting

/-!
# What observers hear of an event

An entry method lets observers hear that its event begins and, in the end, that it ends. What they
hear in between is what its own calls let them hear: for an event that is about a node, the node is
asked for its traversal, for the result of a step the entry methods of its parts are called, and for
all other events nothing is. Whatever a node does in its traversal, as long as it comes to an end,
it is only asked once, and its part of what is heard is where it belongs.

## Main definitions

* `GuardedWalk.Cast.enclosed` — the calls that an entry method makes between its two rounds of
  callbacks.
* `GuardedWalk.Setting.Succeeds` — a part of a walk ends without a failure.
* `GuardedWalk.Setting.Makes` — the same, for a part that makes some calls and nothing else is
  heard.
* `GuardedWalk.Setting.Announced` — an event has been announced around some calls.

## Main results

* `GuardedWalk.Setting.Makes.bind` — one part after another.
* `GuardedWalk.Cast.Keeps.announces_leaf`, `announces_around` — the entry methods of events.
-/

set_option autoImplicit false

namespace GuardedWalk

variable {ε κ : Type}

open Walk (Steps)

/-- What an entry method of a walker calls between its two rounds of callbacks. -/
def Cast.enclosed (X : Cast) (e : Event) (args : List Value) : List (Call κ) :=
  if e = .stepResult then
    (resultCalls args).map fun p => .send (.walker X.walker) (.entry p.1) p.2
  else if e.isComposite then [.send (args.headD .none) .accept [.walker X.walker]]
  else []

namespace Setting

variable {Z : Setting ε κ} {F : Foreign ε κ} {S : Surroundings ε κ} {pins : List Pin} {h : Hold}
  {L : List (Occasion κ)} {σ : Moment ε κ} {I J K : World ε → List (Occasion κ) → Prop}

/-- What observers have heard so far. -/
theorem Going.heard_eq (hg : Z.Going pins h L σ) :
    Z.cast.heard σ.calls = Occasion.callbacks L := by
  rw [← Cast.callbacks_occasions, hg.heard, Occasion.callbacks_filter]

theorem Going.relax (hg : (Z.withInv J).Going pins h L σ) (hJ : ∀ w L, J w L → I w L) :
    (Z.withInv I).Going pins h L σ :=
  ⟨hg.scene, hJ _ _ hg.inv, hg.heard, hg.window⟩

/-! ## Parts that make calls -/

/-- A part of a walk that is begun while the token is held and something is known comes to an end
without a failure, and the walk can go on. -/
def Succeeds (Z : Setting ε κ) (S : Surroundings ε κ) (J : World ε → List (Occasion κ) → Prop)
    (p : Steps ε κ Value) : Prop :=
  ∀ pins s n L σ, (Z.withInv J).Going pins (.owned s n) L σ →
    S.Yields Z.rule σ p fun r σ' => (∃ v, r = .ok v) ∧ ∃ L', Z.Going pins (.owned s n) L' σ'

/-- The same, for a part that makes some calls; observers hear nothing but what these let them
hear. -/
def Makes (Z : Setting ε κ) (S : Surroundings ε κ) (J : World ε → List (Occasion κ) → Prop)
    {α : Type} (p : Steps ε κ α) (cs : List (Call κ)) : Prop :=
  ∀ pins s n L σ, (Z.withInv J).Going pins (.owned s n) L σ →
    S.Yields Z.rule σ p fun r σ' => (∃ a, r = .ok a) ∧ ∃ L', Z.Going pins (.owned s n) L' σ' ∧
      S.Within Z.cast.heard p σ cs (Occasion.callbacks L) (Occasion.callbacks L')

variable {α β : Type} {p : Steps ε κ α} {f : α → Steps ε κ β} {cs cs' : List (Call κ)}

/-- A call that succeeds. -/
theorem Succeeds.makes {c : Call κ} (hc : Z.Succeeds S J (Routine.invoke c)) :
    Z.Makes S J (Routine.invoke c) [c] := by
  intro pins s n L σ hg
  refine (hc pins s n L σ hg).traced.mono ?_
  rintro r σ' ⟨hruns, ⟨v, rfl⟩, L', hg'⟩
  refine ⟨⟨v, rfl⟩, L', hg', ?_⟩
  have hbefore : Z.cast.heard σ.calls = Occasion.callbacks L := hg.heard_eq
  rw [← hbefore, ← hg'.heard_eq]
  exact .more .here hruns (.none _)

theorem Makes.pure (hJ : ∀ w L, J w L → Z.inv w L) (a : α) :
    Z.Makes S J (Pure.pure a : Steps ε κ α) [] := fun _ _ _ L _ hg =>
  .pure ⟨⟨a, rfl⟩, L, hg.relax (I := Z.inv) hJ, .none _⟩

/-- One part of a walk after another. -/
theorem Makes.bind (hp : (Z.withInv K).Makes S J p cs) (hf : ∀ a, Z.Makes S K (f a) cs') :
    Z.Makes S J (p >>= f) (cs ++ cs') := by
  intro pins s n L σ hg
  refine .bind_within (Surroundings.Yields.mono (hp pins s n L σ hg) ?_)
  rintro r σ₁ ⟨⟨a, rfl⟩, L₁, hg₁, hw₁⟩ hin
  refine (hf a pins s n L₁ σ₁ hg₁).mono ?_
  rintro r σ₂ ⟨hr, L₂, hg₂, hw₂⟩
  exact ⟨hr, L₂, hg₂, (hw₁.mono (.first f)).append (hw₂.mono hin)⟩

/-- Less has to be known before a part of a walk than is known. -/
theorem Makes.weaken (hp : Z.Makes S J p cs) (hK : ∀ w L, K w L → J w L) : Z.Makes S K p cs :=
  fun pins s n L σ hg => hp pins s n L σ (Going.relax (Z := Z.withInv J) hg hK)

/-- Entry methods are called, one after the other. -/
theorem Makes.enterAll {ps : List (Event × List Value)}
    (hps : ∀ p ∈ ps, Z.Succeeds S Z.inv (Walk.send (.walker Z.cast.walker) (.entry p.1) p.2)) :
    Z.Makes S Z.inv (Setting.enterAll (.walker Z.cast.walker) ps)
      (ps.map fun p => .send (.walker Z.cast.walker) (.entry p.1) p.2) := by
  induction ps with
  | nil => exact .pure (fun _ _ h => h) _
  | cons p rest ih =>
    exact .bind (K := Z.inv) (hps p List.mem_cons_self).makes fun _ =>
      ih fun q hq => hps q (List.mem_cons_of_mem p hq)

/-! ## Announcements around calls -/

/-- An event has been announced: observers have heard that it begins, then what some calls have let
them hear, and then that it ends. -/
def Announced (Z : Setting ε κ) (S : Surroundings ε κ) (pins : List Pin) (h : Hold)
    (L : List (Occasion κ)) (p : Steps ε κ α) (σ : Moment ε κ) (e : Event) (args : List Value)
    (cs : List (Call κ)) (σ' : Moment ε κ) : Prop :=
  ∃ L' H, Z.Going pins h L' σ' ∧
    S.Within Z.cast.heard p σ cs (Occasion.callbacks L ++ Z.cast.toAll (.before e args)) H ∧
    Occasion.callbacks L' = H ++ Z.cast.toAll .after

theorem Announced.mono {q : Steps ε κ β} {σ₁ σ' : Moment ε κ} {e : Event} {args : List Value}
    (ha : Z.Announced S pins h L q σ₁ e args cs σ') (hin : S.Includes p σ q σ₁) :
    Z.Announced S pins h L p σ e args cs σ' := by
  obtain ⟨L', H, hg, hw, hL⟩ := ha
  exact ⟨L', H, hg, hw.mono hin, hL⟩

theorem Announced.returned {σ' : Moment ε κ} {e : Event} {args : List Value}
    (ha : Z.Announced S pins h L p σ e args cs σ') :
    Z.Announced S pins h L p σ e args cs σ'.returned := by
  obtain ⟨L', H, hg, hw, hL⟩ := ha
  exact ⟨L', H, hg.returned, hw, hL⟩

theorem callbacks_before (L : List (Occasion κ)) (X : Cast) (e : Event) (args : List Value) :
    Occasion.callbacks (L ++ (args.head?.toList.map .guarded ++ X.round (.before e args))) =
      Occasion.callbacks L ++ X.toAll (.before e args) := by
  have hfirst : Occasion.callbacks
      (args.head?.toList.map Occasion.guarded : List (Occasion κ)) = [] := by
    cases args <;> rfl
  simp [hfirst, Cast.callbacks_round]

/-- The first round of callbacks of an event, if none of them fails. -/
theorem Going.firstRound (hg : Z.Going pins h L σ) (hl : Z.Listens F S h)
    (hv : ∀ L, Z.verdict L = none) (e : Event) {args : List Value}
    (hargs : ∀ v ∈ args.head?, Z.Admits F h v) :
    S.Yields Z.rule σ (Walk.send (.adapter Z.cast.adapter) .before (.event e :: args))
      fun r σ' => (∃ v, r = .ok v) ∧ Z.Going pins h
        (L ++ (args.head?.toList.map .guarded ++ Z.cast.round (.before e args))) σ' := by
  refine Surroundings.Yields.mono (Delivers.before hl e hargs L σ hg) ?_
  rintro r σ' ⟨hg', hr⟩
  rw [tell_of_verdict hv] at hg' hr
  cases r with
  | ok v => exact ⟨⟨v, rfl⟩, hg'⟩
  | error g => cases hr

/-- The last round of callbacks of an event, if none of them fails. -/
theorem Going.lastRound {σ₁ : Moment ε κ} {L₁ : List (Occasion κ)} (hg : Z.Going pins h L₁ σ₁)
    (hl : Z.Listens F S h) (hv : ∀ L, Z.verdict L = none) {e : Event} {args : List Value}
    (hw : S.Within Z.cast.heard p σ cs
      (Occasion.callbacks L ++ Z.cast.toAll (.before e args)) (Occasion.callbacks L₁)) :
    S.Yields Z.rule σ₁ (Setting.lastRound Z.cast.walker e) fun r σ' =>
      (∃ v, r = .ok v) ∧ Z.Announced S pins h L p σ e args cs σ' := by
  refine Surroundings.Yields.mono (Delivers.lastRound hl e L₁ σ₁ hg) ?_
  rintro r σ' ⟨hg', hr⟩
  rw [tell_of_verdict hv] at hg' hr
  cases r with
  | ok v =>
    refine ⟨⟨v, rfl⟩, _, _, hg', hw, ?_⟩
    rw [Occasion.callbacks_append, Cast.callbacks_round]
  | error g => cases hr

/-- Two rounds of callbacks with nothing in between. -/
theorem Going.rounds_alone (hg : Z.Going pins h L σ) (hl : Z.Listens F S h)
    (hv : ∀ L, Z.verdict L = none) (e : Event) {args : List Value}
    (hargs : ∀ v ∈ args.head?, Z.Admits F h v) :
    S.Yields Z.rule σ (rounds Z.cast e args .none) fun r σ' =>
      (∃ v, r = .ok v) ∧ Z.Announced S pins h L (rounds Z.cast e args .none) σ e args [] σ' := by
  refine .bind (Surroundings.Yields.mono (hg.firstRound hl hv e hargs) ?_)
  rintro r σ₁ ⟨⟨v, rfl⟩, hg₁⟩
  refine hg₁.lastRound hl hv ?_
  rw [callbacks_before]
  exact .none _

theorem rounds_of_block (X : Cast) (e : Event) (args : List Value) {block : Value}
    (hsome : block ≠ .none) :
    (rounds X e args block : Steps ε κ Value) =
      Walk.send (.adapter X.adapter) .before (.event e :: args) >>= fun _ =>
        Walk.apply block [] >>= fun _ => Setting.lastRound X.walker e := by
  show (_ >>= fun _ => if block ≠ .none then
    Walk.apply block [] >>= fun _ => Setting.lastRound X.walker e
    else Setting.lastRound X.walker e) = _
  rw [if_pos hsome]

/-- Two rounds of callbacks with a block in between. -/
theorem Going.rounds_around (hg : (Z.withInv J).Going pins h L σ)
    (hJ : (Z.withInv J).Listens F S h) (hl : Z.Listens F S h) (hv : ∀ L, Z.verdict L = none)
    (e : Event) {args : List Value} (hargs : ∀ v ∈ args.head?, (Z.withInv J).Admits F h v)
    {block : Value} (hsome : block ≠ .none)
    (hblock : ∀ L σ₁, (Z.withInv J).Going pins h L σ₁ →
      S.Yields Z.rule σ₁ (Walk.apply block []) fun r σ' => (∃ v, r = .ok v) ∧
        ∃ L', Z.Going pins h L' σ' ∧ S.Within Z.cast.heard (Walk.apply block []) σ₁ cs
          (Occasion.callbacks L) (Occasion.callbacks L')) :
    S.Yields Z.rule σ (rounds Z.cast e args block) fun r σ' => (∃ v, r = .ok v) ∧
      Z.Announced S pins h L (rounds Z.cast e args block) σ e args cs σ' := by
  rw [rounds_of_block Z.cast e args hsome]
  refine .bind_within (Surroundings.Yields.mono (hg.firstRound hJ hv e hargs) ?_)
  rintro r σ₁ ⟨⟨v, rfl⟩, hg₁⟩ hin₁
  refine .bind (Surroundings.Yields.mono (hblock _ σ₁ hg₁) ?_)
  rintro r σ₂ ⟨⟨v, rfl⟩, L₂, hg₂, hw⟩
  rw [callbacks_before] at hw
  exact hg₂.lastRound hl hv (hw.mono (hin₁.trans (.first _)))

/-- The token is given back after an event has been announced. -/
theorem Announced.released {p : Steps ε κ α} {pin : Pin} {s : Ref .session} {σ' : Moment ε κ}
    {e : Event} {args : List Value}
    (ha : Z.Announced S (pin :: pins) (h.inner s) L p σ e args cs σ')
    (hE : Z.Closes S pins h (Z.Going pins h)) :
    S.Yields Z.rule σ'.returned (Walk.send (.token Z.cast.token) .release []) fun o σ₂ =>
      (∃ v, o = .ok v) ∧ Z.Announced S pins h L p σ e args cs σ₂.returned := by
  obtain ⟨L', H, hg, hw, hL⟩ := ha
  refine (hE.released pin s L' _ hg.returned).mono ?_
  rintro o σ₂ ⟨ho, hg₂⟩
  exact ⟨ho, L', H, hg₂.returned, hw, hL⟩

end Setting

namespace Cast

open World (Declines)

variable {X : Cast} {F : Foreign ε κ} {D : Ref .list → Prop} {S : Surroundings ε κ}
  {I J : World ε → List (Occasion κ) → Prop} {pins : List Pin} {h : Hold}
  {L : List (Occasion κ)} {σ : Moment ε κ} {e : Event} {args : List Value} {cs : List (Call κ)}

namespace Keeps

theorem lasts (hI : X.Keeps D F.obstruct I) : (X.overheard D I).Lasts := hI.step

/-- The guard can be put on the first argument of an event. -/
theorem admits_first (hI : X.Keeps D F.obstruct I)
    (hd : ∀ w L, I w L → ∀ v ∈ args.head?, Declines X D F.obstruct w v) (h : Hold) :
    ∀ v ∈ args.head?, (X.overheard D I).Admits F h v :=
  fun v hv => hI.admits (fun w L hi => hd w L hi v hv) h

/-- An event is announced while the token of the walker is held. -/
theorem visits (hJ : X.Keeps D F.obstruct J) (hI : X.Keeps D F.obstruct I)
    (hS : X.Attended F D (fun _ => none) S) (ht : (X.overheard D J).Timed h) {row : Ref .tuple}
    (hg : (X.overheard D J).Going (.row row args :: pins) h L σ) {given : List Value}
    {block : Value} (hgiven : given = [.event e, .tuple row] ∧ block = .none ∨
      given = [.event e, .tuple row, block])
    (hrounds : ∀ s n σ₁, (X.overheard D J).Going (.row row args :: pins) (.owned s n) L σ₁ →
      S.Yields (.free ε κ) σ₁ (Setting.rounds X e args block) fun r σ' => (∃ v, r = .ok v) ∧
        (X.overheard D I).Announced S (.row row args :: pins) (.owned s n) L
          (Setting.rounds X e args block) σ₁ e args cs σ') :
    S.Yields (.free ε κ) σ (Walk.send (.walker X.walker) .visit given) fun r σ' =>
      (∃ v, r = .ok v) ∧ (X.overheard D I).Announced S pins h L
        (Walk.send (.walker X.walker) .visit given) σ e args cs σ' := by
  refine Setting.Going.visit (hJ.hosts hS) ht e hg hgiven fun s σ₁ hg₁ hin => ?_
  have hclose := Setting.closes (hI.hosts hS) pins h fun _ => hI.lasts
  obtain ⟨s', n, hs⟩ := h.inner_owned s
  refine Surroundings.Yields.mono (hrounds s' n σ₁ (hs ▸ hg₁)) ?_
  rintro r σ₂ ⟨⟨v, rfl⟩, ha⟩
  rw [← hs] at ha
  refine ((ha.mono hin).released hclose).mono ?_
  rintro o σ₃ ⟨ho, ha₃⟩
  exact ⟨ho, ⟨_, rfl⟩, ha₃⟩

/-- An entry method announces an event. -/
theorem enters (hJ : X.Keeps D F.obstruct J) (hS : X.Attended F D (fun _ => none) S)
    (hlen : args.length = e.params.length) (hg : (X.overheard D J).Going pins h L σ)
    (hrest : ∀ row σ₁, (X.overheard D J).Going (.row row args :: pins) h L σ₁ →
      S.Yields (.free ε κ) σ₁ (Setting.entryRest X.walker e row) fun r σ' => (∃ v, r = .ok v) ∧
        (X.overheard D I).Announced S pins h L (Setting.entryRest X.walker e row) σ₁ e args cs σ') :
    S.Yields (.free ε κ) σ (Walk.send (.walker X.walker) (.entry e) args) fun r σ' =>
      r = .ok .none ∧ (X.overheard D I).Announced S pins h L
        (Walk.send (.walker X.walker) (.entry e) args) σ e args cs σ' := by
  refine hg.entry (hJ.hosts hS) e hlen fun row σ₁ hg₁ hin => ?_
  refine Surroundings.Yields.mono (hrest row σ₁ hg₁) ?_
  rintro r σ₂ ⟨⟨v, rfl⟩, ha⟩
  exact ⟨rfl, (ha.mono hin).returned⟩

/-- An event within which nothing else is announced. -/
theorem announces_leaf (hI : X.Keeps D F.obstruct I) (hS : X.Attended F D (fun _ => none) S)
    (hlen : args.length = e.params.length) (hleaf : e.isComposite = false)
    (ht : e ≠ .announce → (X.overheard D I).Timed h)
    (hd : ∀ w L, I w L → ∀ v ∈ args.head?, Declines X D F.obstruct w v)
    (hg : (X.overheard D I).Going pins h L σ) :
    S.Yields (.free ε κ) σ (Walk.send (.walker X.walker) (.entry e) args) fun r σ' =>
      r = .ok .none ∧ (X.overheard D I).Announced S pins h L
        (Walk.send (.walker X.walker) (.entry e) args) σ e args [] σ' := by
  refine hI.enters hS hlen hg fun row σ₁ hg₁ => ?_
  by_cases hannounce : e = .announce
  · -- an announcement does without the token
    rw [Setting.entryRest, if_pos hannounce]
    refine hg₁.broadcast (hI.hosts hS).toBears e List.mem_cons_self (.inl ⟨rfl, rfl⟩)
      fun σ₂ hg₂ hin => ?_
    refine Surroundings.Yields.mono (hg₂.rounds_alone (hI.listens hS h) (fun _ => rfl) e
      (hI.admits_first hd h)) ?_
    rintro r σ₃ ⟨hr, L', H, hg₃, hw, hL⟩
    exact ⟨hr, L', H, hg₃.returned.unpin, hw.mono hin, hL⟩
  · rw [Setting.entryRest, if_neg hannounce, if_neg (by simp [hleaf])]
    refine hI.visits hI hS (ht hannounce) hg₁ (.inl ⟨rfl, rfl⟩) fun s n σ₂ hg₂ => ?_
    exact hg₂.rounds_alone (hI.listens hS _) (fun _ => rfl) e (hI.admits_first hd _)

/-- An event within which a block makes some calls. -/
theorem announces_around (hJ : X.Keeps D F.obstruct J) (hI : X.Keeps D F.obstruct I)
    (hS : X.Attended F D (fun _ => none) S) (hlen : args.length = e.params.length)
    (hcomposite : e.isComposite = true) (ht : (X.overheard D J).Timed h)
    (hd : ∀ w L, J w L → ∀ v ∈ args.head?, Declines X D F.obstruct w v)
    (hblock : (X.overheard D I).Makes S J (Walk.runBlock F (.walker X.walker) e args) cs)
    (hg : (X.overheard D J).Going pins h L σ) :
    S.Yields (.free ε κ) σ (Walk.send (.walker X.walker) (.entry e) args) fun r σ' =>
      r = .ok .none ∧ (X.overheard D I).Announced S pins h L
        (Walk.send (.walker X.walker) (.entry e) args) σ e args cs σ' := by
  have hannounce : e ≠ .announce := by
    rintro rfl
    cases hcomposite
  refine hJ.enters hS hlen hg fun row σ₁ hg₁ => ?_
  rw [Setting.entryRest, if_neg hannounce, if_pos hcomposite]
  refine hJ.visits hI hS ht hg₁ (.inr rfl) fun s n σ₂ hg₂ => ?_
  refine Setting.Going.rounds_around (Z := X.overheard D I) hg₂ (hJ.listens hS _)
    (hI.listens hS _) (fun _ => rfl) e (hJ.admits_first hd _) (by simp) fun L₁ σ₃ hg₃ => ?_
  refine Setting.Going.block hg₃ (hJ.hosts hS).toBears e List.mem_cons_self fun σ₄ hg₄ hin => ?_
  refine Surroundings.Yields.mono (hblock _ s n L₁ σ₄ hg₄) ?_
  rintro r σ₅ ⟨hr, L', hg₅, hw⟩
  exact ⟨hr, L', hg₅.returned, hw.mono hin⟩

end Keeps

end Cast

end GuardedWalk
