import GuardedWalk.Proofs.Walk.Setting

/-!
# Blocks of a walk

A block that holds the token of the walker begins with an entry and ends by giving the token back,
whatever has happened in between. What the block tells the observers is all that is told, and how
the block ends is how the whole ends.

## Main definitions

* `GuardedWalk.Hold.inner` — how the token is held inside a further block.
* `GuardedWalk.Setting.Timed` — the walk can begin, if it has not begun already.
* `GuardedWalk.Setting.Closes` — what holds after the token has been given back.

## Main results

* `GuardedWalk.Setting.Tells.hold` — a block tells what is told inside.
* `GuardedWalk.Setting.Ends.hold_untimed` — a walk that cannot begin fails at once.
-/

set_option autoImplicit false

namespace GuardedWalk

/-- How the token is held inside a further block; the outermost one opens a session. -/
def Hold.inner (s : Ref .session) : Hold → Hold
  | idle => owned s 0
  | owned s' n => owned s' (n + 1)

/-- Inside a block the token is held. -/
theorem Hold.inner_owned (h : Hold) (s : Ref .session) : ∃ s' n, h.inner s = .owned s' n := by
  cases h with
  | idle => exact ⟨s, 0, rfl⟩
  | owned s' n => exact ⟨s', n + 1, rfl⟩

namespace Setting

open Walk (Steps)

variable {ε κ : Type} {Z : Setting ε κ} {F : Foreign ε κ} {S : Surroundings ε κ}
  {pins : List Pin} {h : Hold} {L : List (Occasion κ)} {σ : Moment ε κ}

/-- The walk can begin, if it has not begun already. -/
def Timed (Z : Setting ε κ) : Hold → Prop
  | .idle => Z.cast.timeout.IsTimeout
  | .owned .. => True

theorem timed_owned (s : Ref .session) (n : Nat) : Z.Timed (.owned s n) := trivial

theorem scene_token {w : World ε} (hw : Z.Scene pins h w) {m : Message}
    (hm : World.understands w (.token Z.cast.token) m = true) :
    w.understands (.token Z.cast.token) m = true ∧ w.Unhidden (.token Z.cast.token) :=
  ⟨hm, hw.held.unhidden⟩

theorem ownValue_session {w : World ε} {s : Ref .session} {n : Nat}
    (hw : Z.Scene pins (.owned s n) w) :
    w.ownValue (.token Z.cast.token) Token.sessionField = .session s := by
  obtain ⟨x, hx, -, ⟨u, ho, -⟩, -⟩ := hw.held.shows
  rw [hx.session, ho]
  rfl

/-- The token is got. -/
theorem Going.acquire (hg : Z.Going pins h L σ) (hZ : Z.Hosts F S) (ht : Z.Timed h)
    {Q : Outcome → Moment ε κ → Prop}
    (hQ : ∀ s v σ', Z.Going pins (h.inner s) L σ' → Q (.ok v) σ') :
    S.Yields Z.rule σ (Walk.send (.token Z.cast.token) .acquire []) Q := by
  refine hg.method hZ.toBears rfl (by simp) rfl (fun w hw => scene_token hw rfl)
    (fun w => rfl) fun σ₁ hg₁ => ?_
  show S.Yields Z.rule σ₁ (Walk.acquire Z.cast.thread Z.cast.token) _
  cases h with
  | idle =>
    refine .bind (hg₁.step hZ fun w hw _ => ?_)
    obtain ⟨w', s, hrun, honward, hw'⟩ := Scene.enter_idle hw ht
    refine ⟨pins, .owned s 0, ?_⟩
    rw [hrun]
    refine ⟨hw', honward, fun σ₂ hg₂ => ?_⟩
    refine .bind (hg₂.step hZ fun w hw _ => ⟨pins, .owned s 0, ?_, ?_, fun σ₃ hg₃ => ?_⟩)
    · exact Scene.still hw (World.still_say ..)
        (Scene.marked_of_nodes (World.still_say ..).toMild (World.nodes_say ..))
    · exact .of_still (World.still_say ..) (World.nodes_say ..) (World.sessions_say ..)
    · exact hg₃.own hZ.toBears (fun w hw => ownValue_session hw) fun σ₄ hg₄ => hQ s _ _ hg₄.returned
  | owned s n =>
    refine .bind (hg₁.step hZ fun w hw _ => ?_)
    obtain ⟨w', hrun, honward, hw'⟩ := Scene.enter_owned hw
    refine ⟨pins, .owned s (n + 1), ?_⟩
    rw [hrun]
    refine ⟨hw', honward, fun σ₂ hg₂ => ?_⟩
    exact hg₂.own hZ.toBears (fun w hw => ownValue_session hw) fun σ₃ hg₃ => hQ s _ _ hg₃.returned

/-! ## The end of a session -/

section Sessions

variable {w : World ε} {s : Ref .session} {threadName : String}

theorem elapsed_run (hr : Ready w s threadName) :
    (Act.read (.session s) "elapsed").run w = (.ok (.float .zero), w) := by
  have hm : w.member (.session s) "elapsed" = .ok (.number .zero) := by
    have hstart := World.ownValue_of_carried hr.started
    simp [World.member, World.extent, World.memberWithin, World.getter?, World.workOut, hstart,
      World.timeSince, Value.number?, World.clockMinus, World.outweighsClock, Binary64.zero]
  simp [Act.read, Act.run_bind, hm, World.reveal, World.newFloat, Binary64.zero]

theorem member_threadName (hr : Ready w s threadName) :
    w.member (.session s) Session.threadNameField = .ok (.value (.text threadName)) :=
  World.member_of_carried rfl hr.name

theorem finished_text (w : World ε) (threadName : String) :
    ∃ text, (do return "Walk finished on thread " ++ (← w.plain (.text threadName)) ++ " after " ++
        (← w.durationText (.float .zero)) ++ "s" : Except Failure String) = .ok text :=
  ⟨_, rfl⟩

end Sessions

/-- A session that is to be closed is closed, and this is logged. -/
theorem Going.finish {s : Ref .session} {threadName : String}
    (hg : Z.Going (.session s threadName :: pins) h L σ) (hZ : Z.Bears F S)
    {I : World ε → List (Occasion κ) → Prop} (hZ' : (Z.withInv I).Bears F S)
    (hclose : ∀ w, Ready w s threadName → Z.inv w L →
      I { w with sessions := w.sessions.modify s Session.close } L)
    (hjournal : ∀ w j, I w L → I { w with journal := j } L)
    {Q : Except Failure Value → Moment ε κ → Prop}
    (hQ : ∀ v σ', (Z.withInv I).Going pins h L σ' → Q (.ok v) σ') :
    S.Yields Z.rule σ (do
      let _ ← Walk.send (.session s) .close []
      let name ← Walk.readAttr (.session s) Session.threadNameField
      let elapsed ← Walk.readAttr (.session s) "elapsed"
      Routine.act (Act.log .debug .session fun w => do
        return "Walk finished on thread " ++ (← w.plain name) ++ " after " ++
          (← w.durationText elapsed) ++ "s")
      return .none) Q := by
  have hready : ∀ w, Z.Scene (.session s threadName :: pins) h w → Ready w s threadName :=
    fun w hw => hw.pinned _ List.mem_cons_self
  refine .bind (hg.method hZ rfl (by simp) rfl
    (fun w hw => ⟨rfl, (hready w hw).unhidden⟩) (fun w => rfl) fun σ₁ hg₁ => ?_)
  refine hg₁.turn hZ I fun w hw hi => ⟨.session s threadName :: pins, h,
    Scene.modifySession hw s Session.amends_close, hclose w (hready w hw) hi, fun σ₂ hg₂ => ?_⟩
  refine .bind (hg₂.returned.readAttr hZ' (fun w hw => member_threadName (hready w hw))
    fun σ₃ hg₃ => ?_)
  refine .bind (hg₃.turn hZ' I fun w hw hi => ⟨.session s threadName :: pins, h, ?_⟩)
  rw [elapsed_run (hready w hw)]
  refine ⟨hw, hi, fun σ₄ hg₄ => ?_⟩
  refine .bind (hg₄.log hZ' hjournal (fun w _ => finished_text w threadName)
    fun σ₅ hg₅ => ?_)
  exact .pure (hQ _ σ₅ { hg₅ with scene := Scene.unpin hg₅.scene })

/-- The token is given back at the end of a walk. -/
theorem Going.release_outer {s : Ref .session} (hg : Z.Going pins (.owned s 0) L σ)
    (hZ : Z.Bears F S) {I J : World ε → List (Occasion κ) → Prop}
    (hI : (Z.withInv I).Bears F S) (hJ : (Z.withInv J).Bears F S)
    (hrelease : ∀ w w', Z.Scene pins (.owned s 0) w → w.Footstep Z.cast.token w' →
      Released w' Z.cast → w'.sessions = w.sessions → Z.inv w L → I w' L)
    (hclose : ∀ w threadName, Ready w s threadName → I w L →
      J { w with sessions := w.sessions.modify s Session.close } L)
    (hjournal : ∀ w j, J w L → J { w with journal := j } L) {Q : Outcome → Moment ε κ → Prop}
    (hQ : ∀ v σ', (Z.withInv J).Going pins .idle L σ' → Q (.ok v) σ') :
    S.Yields Z.rule σ (Walk.send (.token Z.cast.token) .release []) Q := by
  refine hg.method hZ rfl (by simp) rfl (fun w hw => scene_token hw rfl)
    (fun w => rfl) fun σ₁ hg₁ => ?_
  show S.Yields Z.rule σ₁ (Walk.release Z.cast.token) _
  obtain ⟨hscene, hinv⟩ := hg₁.before hZ
  obtain ⟨w', threadName, hrun, hfoot, hreleased, hsessions, hw'⟩ := Scene.release_outer hscene
  refine .bind (.atomically ?_)
  rw [show (Ownership.release Z.cast.token).run (S.before σ₁) = _ from hrun]
  have hg₂ : (Z.withInv I).Going (.session s threadName :: pins) .idle L (σ₁.stepped w') :=
    ⟨hw', hrelease _ _ hscene hfoot hreleased hsessions hinv, hg₁.heard,
      by simp [Moment.stepped, hg₁.window, Window.next]⟩
  exact hg₂.finish hI hJ (fun w hr hi => hclose w threadName hr hi) hjournal
    fun v σ₃ hg₃ => hQ v _ hg₃.returned

/-- What else is to hold throughout holds after the end of the walk as well. -/
def Lasts (Z : Setting ε κ) : Prop :=
  ∀ w w' L, w.Footstep Z.cast.token w' → Z.inv w L → Z.inv w' L

/-- The token is given back, by a block of the walk. -/
theorem Going.release {s : Ref .session} (hg : Z.Going pins (h.inner s) L σ) (hZ : Z.Hosts F S)
    (hlasts : h = .idle → Z.Lasts) {Q : Outcome → Moment ε κ → Prop}
    (hQ : ∀ v σ', Z.Going pins h L σ' → Q (.ok v) σ') :
    S.Yields Z.rule σ (Walk.send (.token Z.cast.token) .release []) Q := by
  cases h with
  | idle =>
    refine Going.release_outer (I := Z.inv) (J := Z.inv) hg hZ.toBears hZ.toBears hZ.toBears
      (fun w w' _ hfoot _ _ hi => hlasts rfl w w' L hfoot hi) (fun w threadName hr hi => ?_)
      (fun w j hi => hZ.journal w j hi) hQ
    exact hZ.onward _ _ L (.of_still (World.still_modifySession w s Session.amends_close) rfl
      (Store.size_modify_of_lt _ hr.stored _)) hi
  | owned s' n =>
    refine hg.method hZ.toBears rfl (by simp) rfl (fun w hw => scene_token hw rfl)
      (fun w => rfl) fun σ₁ hg₁ => ?_
    show S.Yields Z.rule σ₁ (Walk.release Z.cast.token) _
    refine .bind (hg₁.step hZ fun w hw _ => ?_)
    obtain ⟨w', hrun, honward, hw'⟩ := Scene.release_inner hw
    refine ⟨pins, .owned s' n, ?_⟩
    rw [hrun]
    exact ⟨hw', honward, fun σ₂ hg₂ => .pure (hQ _ _ hg₂.returned)⟩

/-! ## Blocks -/

/-- A block that holds the token: it runs while the token is held, and then the token is given
back. The block is on the way of the whole. -/
theorem Going.hold (hg : Z.Going pins h L σ) (hZ : Z.Hosts F S) (ht : Z.Timed h)
    {block : Steps ε κ Value} {Q : Outcome → Moment ε κ → Prop}
    (hb : ∀ s σ', Z.Going pins (h.inner s) L σ' →
      S.Includes (Walk.hold (.token Z.cast.token) block) σ block σ' →
      S.Yields Z.rule σ' block fun r σ₁ =>
        S.Yields Z.rule σ₁ (Walk.send (.token Z.cast.token) .release []) fun o σ₂ =>
          (∃ v, o = .ok v) ∧ Q r σ₂) :
    S.Yields Z.rule σ (Walk.hold (.token Z.cast.token) block) Q := by
  refine .bind_within (hg.method hZ.toBears rfl (by simp) rfl (fun w hw => scene_token hw rfl)
    (fun w => rfl) fun σ₁ hg₁ => ?_)
  refine .pure fun hin₁ => ?_
  refine .bind_within ?_
  refine .bind (.outcome (hg₁.returned.acquire hZ ht fun s v σ₂ hg₂ => ?_))
  refine .pure fun hin₂ => ?_
  have hin := hin₁.trans (hin₂.trans (.trans (.first _) .outcome))
  refine .bind (.outcome ((hb s σ₂ hg₂ hin).mono fun r σ₃ hr => ?_))
  refine .bind (.outcome (hr.mono ?_))
  rintro _ σ₄ ⟨⟨v, rfl⟩, hq⟩
  cases r with
  | ok a => exact .pure hq
  | error g => exact .throw hq

/-- What holds after the token has been given back at the end of an entry, whatever has been taken
note of in it. -/
structure Closes (Z : Setting ε κ) (S : Surroundings ε κ) (pins : List Pin) (h : Hold)
    (E : List (Occasion κ) → Moment ε κ → Prop) : Prop where
  released : ∀ p s L σ, Z.Going (p :: pins) (h.inner s) L σ →
    S.Yields Z.rule σ (Walk.send (.token Z.cast.token) .release []) fun o σ' =>
      (∃ v, o = .ok v) ∧ E L σ'
  returned : ∀ L σ, E L σ → E L σ.returned

theorem closes (hZ : Z.Hosts F S) (pins : List Pin) (h : Hold) (hlasts : h = .idle → Z.Lasts) :
    Z.Closes S pins h (Z.Going pins h) where
  released _ _ _ _ hg := hg.release hZ hlasts fun v _ hg' => ⟨⟨v, rfl⟩, hg'.unpin⟩
  returned _ _ hg := hg.returned

/-- A block that holds the token lets others hear of what is told inside. -/
theorem Tells.hold {p : Pin} (hg : Z.Going (p :: pins) h L σ) (hZ : Z.Hosts F S) (ht : Z.Timed h)
    {E : List (Occasion κ) → Moment ε κ → Prop} (hE : Z.Closes S pins h E)
    {block : Steps ε κ Value} {told : List (Occasion κ)}
    (hb : ∀ s, Z.Delivers S (p :: pins) (h.inner s) block told) :
    Z.Tells S σ L (Walk.hold (.token Z.cast.token) block) told E := by
  refine hg.hold hZ ht fun s σ₁ hg₁ _ => Surroundings.Yields.mono (hb s L σ₁ hg₁) ?_
  rintro r σ₂ ⟨hg₂, hr⟩
  refine (hE.released p s _ σ₂ hg₂).mono ?_
  rintro o σ₃ ⟨ho, hE₃⟩
  exact ⟨ho, hE₃, hr⟩

/-- A walk that cannot begin fails at once: its timeout is too large to be added to a time. -/
theorem Ends.hold_untimed (hZ : Z.Hosts F S) (ht : Z.cast.timeout.outlastsTime = true)
    (block : Steps ε κ Value) :
    Z.Ends S pins .idle (Walk.hold (.token Z.cast.token) block) (.error .numberTooLarge) := by
  intro L σ hg
  refine .bind (hg.method hZ.toBears rfl (by simp) rfl (fun w hw => scene_token hw rfl)
    (fun w => rfl) fun σ₁ hg₁ => ?_)
  refine .pure ?_
  refine .bind ?_
  refine .bind (.outcome (hg₁.returned.method hZ.toBears rfl (by simp) rfl
    (fun w hw => scene_token hw rfl) (fun w => rfl) fun σ₂ hg₂ => ?_))
  refine .bind (hg₂.step hZ fun w hw _ => ?_)
  refine ⟨pins, .idle, ?_⟩
  rw [Scene.enter_untimed hw (Value.ofOwnership_of_outlastsTime ht w.clock _)]
  refine ⟨hw, .refl _ w, fun σ₃ hg₃ => ?_⟩
  refine .bind (.bind (hg₃.returned.read hZ.toBears fun w σ₄ _ hg₄ => ?_))
  exact .pure (.throw ⟨rfl, hg₄⟩)

end Setting

end GuardedWalk
