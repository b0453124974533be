import GuardedWalk.Proofs.Walk.Holding

/-!
# Announcements of a walk

An event is announced between two rounds of callbacks, with the token held meanwhile. Before the
first round the guard of the walker is put on the first argument of the event. What is told in
between depends on the event and on nothing else, so the announcement of an event is said once here,
for all events.

## Main definitions

* `GuardedWalk.Setting.Listens` — observers can be told something.
* `GuardedWalk.Setting.Admits` — a value on which the guard can be put, or that is left alone.
* `GuardedWalk.Setting.Harmless` — a value on which the guard can be put at any time.

## Main results

* `GuardedWalk.Setting.Tells.each` — observers are told the same, one after the other.
* `GuardedWalk.Setting.Tells.leaf`, `Tells.composite`, `Tells.announce` — what the announcement of
  an event tells.
* `GuardedWalk.Setting.Ends.entry_untimed` — a walk that cannot begin tells nothing.
-/

set_option autoImplicit false

namespace GuardedWalk

namespace Setting

open Walk (Steps)

variable {ε κ : Type} {Z : Setting ε κ} {F : Foreign ε κ} {S : Surroundings ε κ}
  {pins : List Pin} {h : Hold} {s : Ref .session} {d : Nat} {L told : List (Occasion κ)}
  {σ : Moment ε κ} {E : List (Occasion κ) → Moment ε κ → Prop}

/-! ## Calls that tell something -/

/-- A call tells what its meaning tells. -/
theorem Tells.call (hg : Z.Going pins h L σ) (hZ : Z.Bears F S) {c : Call κ}
    (hc : Z.cast.isOwn c = true) (hw : Window.ofCall c = .open)
    (hE : ∀ L σ, E L σ → E L σ.returned)
    (hb : ∀ σ', Z.Going pins h L σ' →
      Z.Tells S σ' L (Walk.body F Z.cast.thread c) told E) :
    Z.Tells S σ L (Routine.invoke c) told E :=
  hg.call hZ hc hw fun σ₁ hg₁ => (hb σ₁ hg₁).mono hE

/-- A message tells what its answer tells. -/
theorem Tells.method (hg : Z.Going pins h L σ) (hZ : Z.Bears F S) {v : Value} {m : Message}
    {args : List Value} (hc : Z.cast.isOwn (.send v m args : Call κ) = true) (ha : m ≠ .accept)
    (hn : m.needsNoObject = false)
    (hm : ∀ w, Z.Scene pins h w → w.understands v m = true ∧ w.Unhidden v)
    (hp : ∀ w : World ε, w.argumentProblem? v m args.length = none)
    (hE : ∀ L σ, E L σ → E L σ.returned)
    (hb : ∀ σ', Z.Going pins h L σ' →
      Z.Tells S σ' L (Walk.answer F Z.cast.thread v m args) told E) :
    Z.Tells S σ L (Walk.send v m args) told E :=
  hg.method hZ hc ha hn hm hp fun σ₁ hg₁ => (hb σ₁ hg₁).mono hE

theorem going_returned : ∀ (L : List (Occasion κ)) (σ : Moment ε κ),
    Z.Going pins h L σ → Z.Going pins h L σ.returned := fun _ _ hg => hg.returned

/-- What is told is what is told before a part of a walk that tells nothing. -/
theorem Tells.bind_pure {α β : Type} {p : Steps ε κ α} (hp : Z.Tells S σ L p told E) (b : β) :
    Z.Tells S σ L (do let _ ← p; return b) told E := by
  have hboth : Z.Tells S σ L (do let _ ← p; return b) (told ++ []) E :=
    hp.andThen (fun _ _ _ _ hE => .nothing hE) fun _ _ hE => hE
  rwa [List.append_nil] at hboth

/-- Observers can be told something while the token is held in some way, or by nobody. -/
structure Listens (Z : Setting ε κ) (F : Foreign ε κ) (S : Surroundings ε κ) (h : Hold) : Prop
    extends Z.Bears F S where
  journal : ∀ w j L, Z.inv w L → Z.inv { w with journal := j } L
  hears : ∀ pins L σ o (n : Told), o ∈ Z.cast.observers → n.Prepared L → Z.Going pins h L σ →
    S.Yields Z.rule σ (Routine.invoke (n.call o)) fun r σ' =>
      Z.Going pins h (L ++ [.told o n]) σ' ∧ failure? r = Z.verdict (L ++ [.told o n])

/-- Observers can be told something in the middle of a walk. -/
theorem Hosts.listens (hZ : Z.Hosts F S) (s : Ref .session) (d : Nat) :
    Z.Listens F S (.owned s d) where
  toBears := hZ.toBears
  journal w j _ := hZ.journal w j
  hears pins L σ o n := hZ.hears pins s d L σ o n

/-- An observer is told something. -/
theorem Tells.callback (hg : Z.Going pins h L σ) (hl : Z.Listens F S h)
    {o : Ref .observer} (ho : o ∈ Z.cast.observers) {n : Told} (hn : n.Prepared L) :
    Z.Tells S σ L (Routine.invoke (n.call o)) [.told o n] (Z.Going pins h) := by
  refine (hl.hears pins L σ o n ho hn hg).mono ?_
  rintro r σ₁ ⟨hg₁, hr⟩
  have hfails : Z.fails L (.told o n) = Z.verdict (L ++ [.told o n]) := rfl
  simp only [tell, hfails]
  cases hv : Z.verdict (L ++ [.told o n]) with
  | none => exact ⟨hg₁, hr.trans hv⟩
  | some f => exact ⟨hg₁, hr.trans hv⟩

/-! ## Rounds of callbacks -/

theorem takeTurn_turn (o : Ref .observer) (n : Told) :
    (Walk.takeTurn (.observer o) n.turn : Steps ε κ Value) = Routine.invoke (n.call o) := by
  cases n <;> rfl

/-- All observers from a place on are told the same. -/
theorem Tells.each (hl : Z.Listens F S h) {n : Told} (rest : List (Ref .observer)) (i : Nat)
    (hi : Z.cast.observers.drop i = rest) {L : List (Occasion κ)} {σ : Moment ε κ}
    (hg : Z.Going pins h L σ) (hn : n.Prepared L) :
    Z.Tells S σ L (Routine.invoke (.each (.tuple Z.cast.notified i) n.turn))
      (rest.map fun o => .told o n) (Z.Going pins h) := by
  induction rest generalizing i L σ with
  | nil =>
    refine .call hg hl.toBears rfl rfl going_returned fun σ₁ hg₁ => ?_
    refine .bind (hg₁.look hl.toBears (r := .ok none) (fun w hw => ?_) fun σ₂ hg₂ => ?_)
    · rw [World.advance_tuple, hw.assembled.notified]
      have hlen : Z.cast.observers.length ≤ i := List.drop_eq_nil_iff.1 hi
      simp [List.getElem?_eq_none hlen]
    · exact .pure ⟨hg₂, rfl⟩
  | cons o rest ih =>
    have ho : Z.cast.observers[i]? = some o := by
      rw [← List.head?_drop, hi]
      rfl
    have hrest : Z.cast.observers.drop (i + 1) = rest := by
      rw [← List.tail_drop, hi]
      rfl
    refine .call hg hl.toBears rfl rfl going_returned fun σ₁ hg₁ => ?_
    refine .bind (hg₁.look hl.toBears (r := .ok (some (.observer o, .tuple Z.cast.notified (i + 1))))
      (fun w hw => ?_) fun σ₂ hg₂ => ?_)
    · rw [World.advance_tuple, hw.assembled.notified]
      simp [ho]
    · have hone : Z.Tells S σ₂ L (Walk.takeTurn (.observer o) n.turn) [.told o n]
          (Z.Going pins h) := by
        rw [takeTurn_turn]
        exact .callback hg₂ hl (List.mem_of_getElem? ho) hn
      exact hone.andThen (fun _ L' σ' hL hg' => ih (i + 1) hrest hg' (hn.mono hL))
        fun _ _ hg' => hg'

/-- A round of callbacks is logged and made. -/
theorem Tells.tellAll (hg : Z.Going pins h L σ) (hl : Z.Listens F S h) (phase : Message)
    (e : Event) {n : Told} (hn : n.Prepared L) :
    Z.Tells S σ L (Walk.tellAll Z.cast.adapter phase (.event e) n.turn) (Z.cast.round n)
      (Z.Going pins h) := by
  refine .bind (hg.readAttr hl.toBears (x := .text e.methodName)
    (fun w hw => World.member_event (hw.assembled.events e)) fun σ₁ hg₁ => ?_)
  refine .bind (hg₁.own hl.toBears
    (fun w hw => World.ownValue_of_carried hw.assembled.adapterNotified) fun σ₂ hg₂ => ?_)
  refine .bind (hg₂.look hl.toBears (r := .ok Z.cast.observers.length) (fun w hw => ?_)
    fun σ₃ hg₃ => ?_)
  · have hsize : (w.tuples.get Z.cast.notified).size = Z.cast.observers.length := by
      have := congrArg List.length hw.assembled.notified
      simpa [World.row] using this
    simp [World.length, World.lengthWithin, hsize]
  refine .bind (hg₃.log hl.toBears (fun w j => hl.journal w j L) (fun w _ => ⟨_, rfl⟩)
    fun σ₄ hg₄ => ?_)
  refine .bind (hg₄.look hl.toBears (r := .ok (.tuple Z.cast.notified 0)) (fun w _ => ?_)
    fun σ₅ hg₅ => ?_)
  · simp only [World.begin, World.iterable, World.iterableWithin]
    rfl
  · exact Tells.each hl Z.cast.observers 0 rfl hg₅ hn

/-! ## Announcements -/

/-- A value on which the guard of the walker can be put, or that is left alone: either way the walk
goes on. -/
def Admits (Z : Setting ε κ) (F : Foreign ε κ) (h : Hold) (v : Value) : Prop :=
  ∀ pins w L, Z.Scene pins h w → Z.inv w L →
    ∃ b w', World.install F.obstruct w Z.cast.guard v = (.ok b, w') ∧ Z.Scene pins h w' ∧
      Z.inv w' (L ++ [.guarded v])

/-- A value on which the guard can be put at any time. -/
def Harmless (Z : Setting ε κ) (v : Value) : Prop :=
  ∀ pins h w, Z.Scene pins h w → w.Guardable Z.strict v

theorem Harmless.admits {v : Value} (hv : Z.Harmless v) (hZ : Z.Hosts F S) (s : Ref .session)
    (d : Nat) : Z.Admits F (.owned s d) v := by
  intro pins w L hw hi
  obtain ⟨b, w', hrun, hw'⟩ := GuardedWalk.Scene.install hw F.obstruct (hv pins _ _ hw)
  have hinv := hZ.guards pins s d _ L v hw (hv pins _ _ hw) hi
  rw [hrun] at hinv
  exact ⟨b, w', hrun, hw', hinv⟩

theorem scene_adapter {w : World ε} (hw : Z.Scene pins h w) {m : Message}
    (hm : World.understands w (.adapter Z.cast.adapter) m = true) :
    w.understands (.adapter Z.cast.adapter) m = true ∧ w.Unhidden (.adapter Z.cast.adapter) :=
  ⟨hm, hw.assembled.adapterOpen⟩

theorem scene_walker {w : World ε} (hw : Z.Scene pins h w) {m : Message}
    (hm : World.understands w (.walker Z.cast.walker) m = true) :
    w.understands (.walker Z.cast.walker) m = true ∧ w.Unhidden (.walker Z.cast.walker) :=
  ⟨hm, hw.assembled.walkerOpen⟩

/-- The guard of the walker is put on a value. -/
theorem Tells.install (hg : Z.Going pins h L σ) (hZ : Z.Bears F S) {v : Value}
    (hv : Z.Admits F h v) :
    Z.Tells S σ L (Walk.send (.guard Z.cast.guard) .install [v]) [.guarded v]
      fun L' σ' => Z.Going pins h L' σ' ∧ .guarded v ∈ L' := by
  refine hg.method hZ rfl (by simp) rfl (fun w hw => ⟨rfl, hw.assembled.guardOpen⟩)
    (fun w => rfl) fun σ₁ hg₁ => ?_
  obtain ⟨hscene, hinv⟩ := hg₁.before hZ
  obtain ⟨b, w', hrun, hw', hinv'⟩ := hv pins _ L hscene hinv
  refine .bind (.atomically ?_)
  rw [hrun]
  refine .pure ⟨⟨?_, by simp [tell, fails, Occasion.isCall, Occasion.call?]⟩, rfl⟩
  exact (hg₁.stepped hw' hinv' (by simp [Occasion.isCall, Occasion.call?])).returned

/-- The first round of an event: the guard is put on its first argument, and all observers are told
that it begins. -/
theorem Delivers.before (hl : Z.Listens F S h) (e : Event) {args : List Value}
    (hargs : ∀ v ∈ args.head?, Z.Admits F h v) :
    Z.Delivers S pins h (Walk.send (.adapter Z.cast.adapter) .before (.event e :: args))
      (args.head?.toList.map .guarded ++ Z.cast.round (.before e args)) := by
  intro L σ hg
  refine .method hg hl.toBears (by simp [Cast.isOwn]) (by simp) rfl
    (fun w hw => scene_adapter hw rfl) (fun w => ?_) going_returned fun σ₁ hg₁ => ?_
  · simp [World.argumentProblem?, World.parametersOf, Parameters.problem?, Parameters.atLeast]
  · cases args with
    | nil => exact Tells.tellAll hg₁ hl .before e (n := .before e []) trivial
    | cons v rest =>
      refine .bind (hg₁.own hl.toBears
        (fun w hw => World.ownValue_of_carried hw.assembled.adapterGuard) fun σ₂ hg₂ => ?_)
      refine (Tells.install hg₂ hl.toBears (hargs v rfl)).andThen (fun a L' σ' _ hg' => ?_)
        fun _ _ hg' => hg'.1
      exact Tells.tellAll hg'.1 hl .before e (n := .before e (v :: rest)) hg'.2

/-- The second round of an event. -/
theorem Delivers.after (hl : Z.Listens F S h) (e : Event) :
    Z.Delivers S pins h (Walk.send (.adapter Z.cast.adapter) .after [.event e])
      (Z.cast.round .after) := fun _ _ hg =>
  .method hg hl.toBears (by simp [Cast.isOwn]) (by simp) rfl (fun w hw => scene_adapter hw rfl)
    (fun w => rfl) going_returned
    fun _ hg₁ => Tells.tellAll hg₁ hl .after e (n := .after) trivial

/-- The second round of callbacks for an event of a walker. -/
def lastRound (r : Ref .walker) (e : Event) : Steps ε κ Value := do
  let _ ← Walk.send (← Walk.own (.walker r) Walker.broadcastField) .after [.event e]
  return .none

theorem Delivers.lastRound (hl : Z.Listens F S h) (e : Event) :
    Z.Delivers S pins h (Setting.lastRound Z.cast.walker e) (Z.cast.round .after) := by
  intro L σ hg
  refine .bind (hg.own hl.toBears (fun w hw => World.ownValue_of_carried hw.assembled.broadcast)
    fun σ₁ hg₁ => ?_)
  exact (Delivers.after hl e L σ₁ hg₁).bind_pure Value.none

/-- What a walker does to announce an event, once it has found out what notifies its observers and
has looked at the arguments: two rounds of callbacks, with a block in between if there is one. -/
def rounds (X : Cast) (e : Event) (args : List Value) (block : Value) : Steps ε κ Value := do
  let _ ← Walk.send (.adapter X.adapter) .before (.event e :: args)
  if block ≠ .none then
    let _ ← Walk.apply block []
  lastRound X.walker e

/-- The message that announces an event comes to two rounds of callbacks, with a block in between if
there is one. -/
theorem Going.broadcast (hg : Z.Going pins h L σ) (hZ : Z.Bears F S) (e : Event)
    {row : Ref .tuple} {args : List Value} (hrow : .row row args ∈ pins) {given : List Value}
    {block : Value} (hgiven : given = [.event e, .tuple row] ∧ block = .none ∨
      given = [.event e, .tuple row, block]) {Q : Outcome → Moment ε κ → Prop}
    (hb : ∀ σ', Z.Going pins h L σ' →
      S.Includes (Walk.send (.walker Z.cast.walker) .broadcast given) σ
        (rounds Z.cast e args block) σ' →
      S.Yields Z.rule σ' (rounds Z.cast e args block) fun r σ₁ => Q r σ₁.returned) :
    S.Yields Z.rule σ (Walk.send (.walker Z.cast.walker) .broadcast given) Q := by
  have hbody : ∀ σ₁, Z.Going pins h L σ₁ →
      S.Includes (Walk.send (.walker Z.cast.walker) .broadcast given) σ
        (Walk.broadcast (.walker Z.cast.walker) (.event e) (.tuple row) block) σ₁ →
      S.Yields Z.rule σ₁ (Walk.broadcast (.walker Z.cast.walker) (.event e) (.tuple row) block)
        fun r σ₂ => Q r σ₂.returned := by
    intro σ₁ hg₁ hin₁
    refine .bind_within (hg₁.own hZ
      (fun w hw => World.ownValue_of_carried hw.assembled.broadcast) fun σ₂ hg₂ hin₂ => ?_)
    refine .bind_within (hg₂.look hZ (r := .ok (.bound .before)) (fun w hw => ?_)
      fun σ₃ hg₃ hin₃ => ?_)
    · exact World.member_of_understands (v := .adapter Z.cast.adapter) (m := .before) rfl
        (hw.assembled.adapterOpen .before (by simp))
    refine .bind_within (hg₃.look hZ (r := .ok args) (fun w hw => ?_) fun σ₄ hg₄ hin₄ =>
      hb σ₄ hg₄ (hin₁.trans (hin₂.trans (hin₃.trans hin₄))))
    have hitems : w.row row = args := (hw.pinned _ hrow).2
    simp only [World.spread, World.hasElements, World.elementsOf, World.iterable,
      World.iterableWithin, if_true]
    exact congrArg Except.ok hitems
  rcases hgiven with ⟨rfl, rfl⟩ | rfl <;>
    exact hg.method_within hZ rfl (by simp) rfl (fun w hw => scene_walker hw rfl)
      (fun w => rfl) fun σ₁ hg₁ hin₁ => hbody σ₁ hg₁ hin₁

/-- An event is announced, with a block in between if there is one. -/
theorem Delivers.rounds (hl : Z.Listens F S h) (e : Event) {args : List Value}
    (hargs : ∀ v ∈ args.head?, Z.Admits F h v) {block : Value}
    (hblock : block ≠ .none → Z.Delivers S pins h (Walk.apply block []) told)
    (hnone : block = .none → told = []) :
    Z.Delivers S pins h (Setting.rounds Z.cast e args block) (Z.cast.around e args told) := by
  rw [Cast.around, List.append_assoc]
  refine Delivers.bind (Delivers.before hl e hargs) fun _ => ?_
  show Z.Delivers S pins h
    (if block ≠ .none then Walk.apply block [] >>= fun _ => Setting.lastRound Z.cast.walker e
      else Setting.lastRound Z.cast.walker e) _
  by_cases hb : block = .none
  · rw [hnone hb, List.nil_append, if_neg (not_not_intro hb)]
    exact .lastRound hl e
  · rw [if_pos hb]
    exact (hblock hb).bind fun _ => .lastRound hl e

/-- The message that announces an event while the token of the walker is held. -/
theorem Going.visit (hZ : Z.Hosts F S) (ht : Z.Timed h) (e : Event) {row : Ref .tuple}
    {args : List Value} (hg : Z.Going (.row row args :: pins) h L σ) {given : List Value}
    {block : Value} (hgiven : given = [.event e, .tuple row] ∧ block = .none ∨
      given = [.event e, .tuple row, block]) {Q : Outcome → Moment ε κ → Prop}
    (hb : ∀ s σ', Z.Going (.row row args :: pins) (h.inner s) L σ' →
      S.Includes (Walk.send (.walker Z.cast.walker) .visit given) σ
        (rounds Z.cast e args block) σ' →
      S.Yields Z.rule σ' (rounds Z.cast e args block) fun r σ₁ =>
        S.Yields Z.rule σ₁.returned (Walk.send (.token Z.cast.token) .release []) fun o σ₂ =>
          (∃ v, o = .ok v) ∧ Q (r.map fun _ => .none) σ₂.returned) :
    S.Yields Z.rule σ (Walk.send (.walker Z.cast.walker) .visit given) Q := by
  have hbody : ∀ σ₁, Z.Going (.row row args :: pins) h L σ₁ →
      S.Includes (Walk.send (.walker Z.cast.walker) .visit given) σ
        (Walk.visit (.walker Z.cast.walker) (.event e) (.tuple row) block) σ₁ →
      S.Yields Z.rule σ₁ (Walk.visit (.walker Z.cast.walker) (.event e) (.tuple row) block)
        fun r σ₂ => Q r σ₂.returned := by
    intro σ₁ hg₁ hin₁
    refine .bind_within (hg₁.own hZ.toBears
      (fun w hw => World.ownValue_of_carried hw.assembled.ownership) fun σ₂ hg₂ hin₂ => ?_)
    refine .bind (hg₂.hold hZ ht fun s σ₃ hg₃ hin₃ => hg₃.broadcast hZ.toBears e
      List.mem_cons_self (.inr rfl) fun σ₄ hg₄ hin₄ => ?_)
    have hin := hin₁.trans (hin₂.trans (.trans (.first _) (hin₃.trans hin₄)))
    refine (hb s σ₄ hg₄ hin).mono fun r σ₅ hr => hr.mono ?_
    rintro o σ₆ ⟨ho, hq⟩
    refine ⟨ho, ?_⟩
    cases r with
    | ok a => exact .pure hq
    | error f => exact hq
  rcases hgiven with ⟨rfl, rfl⟩ | rfl <;>
    exact hg.method_within hZ.toBears rfl (by simp) rfl (fun w hw => scene_walker hw rfl)
      (fun w => rfl) fun σ₁ hg₁ hin₁ => hbody σ₁ hg₁ hin₁

/-- The same, for what is told. -/
theorem Tells.visit (hZ : Z.Hosts F S) (ht : Z.Timed h) (hE : Z.Closes S pins h E) (e : Event)
    {row : Ref .tuple} {args : List Value} (hg : Z.Going (.row row args :: pins) h L σ)
    (hargs : ∀ v ∈ args.head?, Z.Harmless v) {given : List Value} {block : Value}
    (hgiven : given = [.event e, .tuple row] ∧ block = .none ∨
      given = [.event e, .tuple row, block])
    (hblock : block ≠ .none → ∀ s,
      Z.Delivers S (.row row args :: pins) (h.inner s) (Walk.apply block []) told)
    (hnone : block = .none → told = []) :
    Z.Tells S σ L (Walk.send (.walker Z.cast.walker) .visit given)
      (Z.cast.around e args told) E := by
  refine Going.visit hZ ht e hg hgiven fun s σ₁ hg₁ _ => ?_
  have hinner := (hblock · s)
  obtain ⟨s', d, hd⟩ := h.inner_owned s
  have hrounds : Z.Delivers S (.row row args :: pins) (h.inner s) (rounds Z.cast e args block)
      (Z.cast.around e args told) := by
    rw [hd] at hinner ⊢
    exact .rounds (hZ.listens s' d) e (fun v hv => (hargs v hv).admits hZ s' d) hinner hnone
  refine Surroundings.Yields.mono (hrounds L σ₁ hg₁) ?_
  rintro r σ₂ ⟨hg₂, hr⟩
  refine (hE.released _ s _ _ hg₂.returned).mono ?_
  rintro o σ₃ ⟨ho, hE₃⟩
  exact ⟨ho, hE.returned _ _ hE₃, (failure?_map _ r).trans hr⟩

/-! ## Entry methods -/

theorem entry_argumentProblem (w : World ε) (r : Ref .walker) {e : Event} {args : List Value}
    (hlen : args.length = e.params.length) :
    w.argumentProblem? (.walker r) (.entry e) args.length = none := by
  rw [hlen]
  exact Parameters.problem?_exactly ..

/-- What an entry method does after it has put its arguments into a tuple. -/
def entryRest (r : Ref .walker) (e : Event) (row : Ref .tuple) : Steps ε κ Value :=
  if e = .announce then Walk.send (.walker r) .broadcast [.event e, .tuple row]
  else if e.isComposite then
    Walk.send (.walker r) .visit [.event e, .tuple row, .block r e row]
  else Walk.send (.walker r) .visit [.event e, .tuple row]

/-- An entry method first puts its arguments into a tuple. -/
theorem Going.entry (hg : Z.Going pins h L σ) (hZ : Z.Hosts F S) (e : Event) {args : List Value}
    (hlen : args.length = e.params.length) {Q : Outcome → Moment ε κ → Prop}
    (hv : ∀ row σ', Z.Going (.row row args :: pins) h L σ' →
      S.Includes (Walk.send (.walker Z.cast.walker) (.entry e) args) σ
        (entryRest Z.cast.walker e row) σ' →
      S.Yields Z.rule σ' (entryRest Z.cast.walker e row) fun r σ₁ =>
        Q (r.map fun _ => .none) σ₁.returned) :
    S.Yields Z.rule σ (Walk.send (.walker Z.cast.walker) (.entry e) args) Q := by
  have hbody : (Walk.answer F Z.cast.thread (.walker Z.cast.walker) (.entry e) args :
      Steps ε κ Value) = do
        let row ← Routine.update (·.storeTuple args)
        let _ ← entryRest Z.cast.walker e row
        return .none := by
    show Walk.walkerEntry Z.cast.walker e args = _
    unfold Walk.walkerEntry entryRest
    congr 1
    funext row
    by_cases hannounce : e = .announce
    · simp only [if_pos hannounce]
    · by_cases hcomposite : e.isComposite = true
      · simp only [if_neg hannounce, if_pos hcomposite]
        rfl
      · simp only [if_neg hannounce, if_neg hcomposite]
  refine hg.method_within hZ.toBears (by simp [Cast.isOwn]) (by simp) rfl
    (fun w hw => scene_walker hw rfl) (fun w => entry_argumentProblem w _ hlen)
    fun σ₁ hg₁ hin₁ => ?_
  rw [hbody] at hin₁ ⊢
  refine .bind_within (hg₁.step hZ fun w hw _ => ⟨.row (w.storeTuple args).1 args :: pins, h,
    Scene.storeTuple hw args, .of_still (World.still_storeTuple w args) rfl rfl,
    fun σ₂ hg₂ hin₂ => ?_⟩)
  have hin := hin₁.trans (hin₂.trans (.first _))
  refine .bind ((hv _ σ₂ hg₂ hin).mono fun r σ₃ hr => ?_)
  cases r with
  | ok a => exact .pure hr
  | error f => exact hr

/-- The same, for what is told. -/
theorem Tells.entry (hg : Z.Going pins h L σ) (hZ : Z.Hosts F S) (e : Event) {args : List Value}
    (hlen : args.length = e.params.length) (hE : ∀ L σ, E L σ → E L σ.returned)
    (hv : ∀ row σ', Z.Going (.row row args :: pins) h L σ' →
      Z.Tells S σ' L (entryRest Z.cast.walker e row) told E) :
    Z.Tells S σ L (Walk.send (.walker Z.cast.walker) (.entry e) args) told E :=
  hg.entry hZ e hlen fun row σ₁ hg₁ _ => Surroundings.Yields.mono (hv row σ₁ hg₁) fun r _ hr =>
    ⟨hE _ _ hr.1, (failure?_map _ r).trans hr.2⟩

/-- What the announcement of an event tells that has nothing below it. -/
theorem Tells.leaf (hg : Z.Going pins h L σ) (hZ : Z.Hosts F S) (ht : Z.Timed h)
    (hE : Z.Closes S pins h E) (e : Event) {args : List Value}
    (hlen : args.length = e.params.length) (hannounce : e ≠ .announce)
    (hleaf : e.isComposite = false) (hargs : ∀ v ∈ args.head?, Z.Harmless v) :
    Z.Tells S σ L (Walk.send (.walker Z.cast.walker) (.entry e) args)
      (Z.cast.around e args []) E := by
  refine .entry hg hZ e hlen hE.returned fun row σ₁ hg₁ => ?_
  rw [entryRest, if_neg hannounce, if_neg (by simp [hleaf])]
  exact .visit hZ ht hE e hg₁ hargs (.inl ⟨rfl, rfl⟩) (fun hn => absurd rfl hn) fun _ => rfl

/-- What an announcement tells for which the token is not needed. -/
theorem Tells.announce (hg : Z.Going pins (.owned s d) L σ) (hZ : Z.Hosts F S) {args : List Value}
    (hlen : args.length = Event.announce.params.length)
    (hargs : ∀ v ∈ args.head?, Z.Harmless v) :
    Z.Tells S σ L (Walk.send (.walker Z.cast.walker) (.entry .announce) args)
      (Z.cast.around .announce args []) (Z.Going pins (.owned s d)) := by
  refine .entry hg hZ .announce hlen going_returned fun row σ₁ hg₁ => ?_
  rw [entryRest, if_pos rfl]
  refine hg₁.broadcast hZ.toBears .announce List.mem_cons_self (.inl ⟨rfl, rfl⟩) fun σ₂ hg₂ _ => ?_
  exact Tells.mono (Delivers.rounds (hZ.listens s d) .announce
    (fun v hv => (hargs v hv).admits hZ s d) (fun hn => absurd rfl hn) (fun _ => rfl) L σ₂ hg₂)
    fun _ _ hg₃ => hg₃.returned.unpin

/-- A walker does what it does between the notifications of an event, given the arguments that it
has put into a tuple. -/
theorem Going.block (hg : Z.Going pins h L σ) (hZ : Z.Bears F S) (e : Event) {row : Ref .tuple}
    {args : List Value} (hrow : .row row args ∈ pins) {Q : Outcome → Moment ε κ → Prop}
    (hb : ∀ σ', Z.Going pins h L σ' →
      S.Includes (Walk.apply (.block Z.cast.walker e row) []) σ
        (Walk.runBlock F (.walker Z.cast.walker) e args) σ' →
      S.Yields Z.rule σ' (Walk.runBlock F (.walker Z.cast.walker) e args) fun r σ₁ =>
        Q r σ₁.returned) :
    S.Yields Z.rule σ (Walk.apply (.block Z.cast.walker e row) []) Q := by
  refine hg.call_within hZ rfl rfl fun σ₁ hg₁ hin₁ => ?_
  refine .bind_within (.bind (hg₁.read hZ fun w σ₂ _ hg₂ => .pure fun hin₂ => ?_))
  refine .bind_within (hg₂.read hZ fun w σ₃ hw hg₃ hin₃ => ?_)
  have hitems : w.row row = args := (hw.pinned _ hrow).2
  rw [hitems] at hin₃ ⊢
  exact hb σ₃ hg₃ (hin₁.trans (hin₂.trans hin₃))

/-- What the announcement of an event tells within which a block runs. -/
theorem Tells.composite (hg : Z.Going pins h L σ) (hZ : Z.Hosts F S) (ht : Z.Timed h)
    (hE : Z.Closes S pins h E) (e : Event) {args : List Value}
    (hlen : args.length = e.params.length) (hcomposite : e.isComposite = true)
    (hargs : ∀ v ∈ args.head?, Z.Harmless v)
    (hblock : ∀ (row : Ref .tuple) s, Z.Delivers S (.row row args :: pins) (h.inner s)
      (Walk.runBlock F (.walker Z.cast.walker) e args) told) :
    Z.Tells S σ L (Walk.send (.walker Z.cast.walker) (.entry e) args)
      (Z.cast.around e args told) E := by
  have hannounce : e ≠ .announce := by
    rintro rfl
    cases hcomposite
  refine .entry hg hZ e hlen hE.returned fun row σ₁ hg₁ => ?_
  rw [entryRest, if_neg hannounce, if_pos hcomposite]
  refine .visit hZ ht hE e hg₁ hargs (.inr rfl) (fun _ s => ?_) (by simp)
  exact fun L σ hg => hg.block hZ.toBears e List.mem_cons_self fun σ₂ hg₂ _ =>
    (hblock row s L σ₂ hg₂).mono going_returned

/-! ## Walks that cannot begin -/

theorem Ends.visit_untimed (hZ : Z.Hosts F S) (ht : Z.cast.timeout.outlastsTime = true)
    (e row : Value) (rest : List Value) (hrest : rest.length ≤ 1) :
    Z.Ends S pins .idle (Walk.send (.walker Z.cast.walker) .visit (e :: row :: rest))
      (.error .numberTooLarge) := by
  intro L σ hg
  have hproblem : ∀ w : World ε,
      w.argumentProblem? (.walker Z.cast.walker) .visit (e :: row :: rest).length = none := by
    intro w
    match rest, hrest with
    | [], _ => rfl
    | [_], _ => rfl
  refine hg.method hZ.toBears rfl (by simp) rfl (fun w hw => scene_walker hw rfl) hproblem
    fun σ₁ hg₁ => ?_
  refine .bind (hg₁.own hZ.toBears (fun w hw => World.ownValue_of_carried hw.assembled.ownership)
    fun σ₂ hg₂ => ?_)
  refine .bind ((Ends.hold_untimed hZ ht _ L σ₂ hg₂).mono ?_)
  rintro _ σ₃ ⟨rfl, hg₃⟩
  exact ⟨rfl, hg₃.returned⟩

/-- An entry into a walk that cannot begin fails, and nothing is told. -/
theorem Ends.entry_untimed (hZ : Z.Hosts F S) (ht : Z.cast.timeout.outlastsTime = true) (e : Event)
    {args : List Value} (hlen : args.length = e.params.length) (hannounce : e ≠ .announce) :
    Z.Ends S pins .idle (Walk.send (.walker Z.cast.walker) (.entry e) args)
      (.error .numberTooLarge) := by
  intro L σ hg
  refine hg.method hZ.toBears (by simp [Cast.isOwn]) (by simp) rfl (fun w hw => scene_walker hw rfl)
    (fun w => entry_argumentProblem w _ hlen) fun σ₁ hg₁ => ?_
  refine .bind (hg₁.step hZ fun w hw _ => ⟨.row (w.storeTuple args).1 args :: pins, .idle,
    Scene.storeTuple hw args, .of_still (World.still_storeTuple w args) rfl rfl,
    fun σ₂ hg₂ => ?_⟩)
  have hfail : ∀ rest : List Value, rest.length ≤ 1 → S.Yields Z.rule σ₂ (do
      let _ ← Walk.send (.walker Z.cast.walker) .visit
        (.event e :: .tuple (w.storeTuple args).1 :: rest)
      return .none)
      fun r σ' => r = (.error .numberTooLarge : Outcome) ∧ Z.Going pins .idle L σ'.returned := by
    intro rest hrest
    refine .bind ((Ends.visit_untimed hZ ht _ _ rest hrest L σ₂ hg₂).mono ?_)
    rintro _ σ₃ ⟨rfl, hg₃⟩
    exact ⟨rfl, hg₃.returned.unpin⟩
  dsimp only
  rw [if_neg hannounce]
  split
  · exact hfail [.block Z.cast.walker e (w.storeTuple args).1] (by simp)
  · exact hfail [] (by simp)

end Setting

end GuardedWalk
