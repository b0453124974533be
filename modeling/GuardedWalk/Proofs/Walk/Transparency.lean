import GuardedWalk.Proofs.Walk.Attending
import GuardedWalk.Proofs.Walk.Making

/-!
# Guards do not show

Whatever guards have been put on the nodes of a document and taken off again, and whatever happens
to them while a walk goes on, the walk tells its observers what it would tell them if no node had
ever been guarded, and no policy is ever asked about it.

## Design

Others act before every step of the walk and while its callbacks run. What they do there is any
history of `Meddling`, so walks of other walkers are among it, nested in a callback or on another
thread: `walk_meddles` says that a whole walk of one walker is such a history to every other. How a
callback ends may depend on all callbacks of the walk up to it and on nothing else, since only such
observers can be said to be the same in two runs.

## Main definitions

* `GuardedWalk.Cast.Surrounded` — surroundings in which others act and answer the callbacks.

## Main results

* `GuardedWalk.Cast.Surrounded.hosts` — a walk can go on in such surroundings.
* `GuardedWalk.Cast.walk_meddles` — a whole walk is a history to others.
* `GuardedWalk.Cast.guards_do_not_show` — the callbacks of a walk do not depend on guards.
-/

set_option autoImplicit false

namespace GuardedWalk

variable {ε κ : Type}

namespace Cast

/-- Surroundings in which others act between the steps of a walk and answer its callbacks. Every
other call of the walk runs as it should. -/
structure Surrounded (X : Cast) (F : Foreign ε κ) (verdict : List Callback → Option Failure)
    (meddle : World ε → World ε → Prop) (S : Surroundings ε κ) : Prop where
  body : ∀ c, S.body c = if (X.heard? c).isSome then none else some (Walk.body F X.thread c)
  move : ∀ σ, meddle σ.world (S.move σ)
  reply : ∀ σ c, meddle σ.world (S.reply σ c).2
  verdict : ∀ σ o (n : Told),
    failure? (S.reply σ (n.call o)).1 = verdict (X.heard σ.calls ++ [(o, n)])

variable {X : Cast} {F : Foreign ε κ} {verdict : List Callback → Option Failure}
  {meddle : World ε → World ε → Prop} {S : Surroundings ε κ} {bound : Nat} {root : Document}

/-- A walk makes no call itself that others answer as an observer. -/
theorem heard?_of_isOwn {c : Call κ} (hc : X.isOwn c = true) : X.heard? c = none := by
  have hnone := occasion?_of_isOwn hc
  cases c with
  | send v m args => exact Option.map_eq_none_iff.1 hnone
  | _ => rfl

/-- A walk asks no policy itself. -/
theorem isHandle_of_isOwn {c : Call κ} (hc : X.isOwn c = true) : c.isHandle = false := by
  cases c with
  | send v m args =>
    cases m
    case handle => cases hc
    all_goals rfl
  | _ => rfl

/-- The setting of a walk through a document, with something else that holds throughout. No policy
is asked. -/
def through (X : Cast) (bound : Nat) (root : Document) (e : Event) (inv : World ε → Prop)
    (verdict : List Callback → Option Failure) : Setting ε κ where
  cast := X
  strict := true
  lists := bound
  root := root.entered e
  inv w _ := root.Fits bound w ∧ inv w
  verdict L := verdict (Occasion.callbacks L)
  rule c _ := c.isHandle = false

theorem lasts_through (e : Event) (verdict : List Callback → Option Failure)
    {inv : World ε → Prop} (hfoot : ∀ w w', w.Footstep X.token w' → inv w → inv w') :
    (X.through bound root e inv verdict : Setting ε κ).Lasts := fun w w' _ hw hi =>
  ⟨(hw.meddles lasting_none id).fits hi.1, hfoot w w' hw hi.2⟩

/-- A walk through a document can go on among others who leave the walker alone. -/
theorem Surrounded.hosts (hS : X.Surrounded F verdict meddle S) {e : Event}
    (he : e.entersNode = true) {inv : World ε → Prop}
    (hmeddle : ∀ w w', meddle w w' → Meddling X.Intact root w w')
    (hinv : ∀ w w', meddle w w' → inv w → inv w')
    (hfoot : ∀ w w', w.Footstep X.token w' → inv w → inv w')
    (hguard : ∀ (w : World ε) v, w.Unhidden (.guard X.guard) → w.Plain v → inv w →
      inv (World.install F.obstruct w X.guard v).2) :
    (X.through bound root e inv verdict).Hosts F S where
  body c hc := by
    rw [hS.body c, heard?_of_isOwn (X := X) hc]
    rfl
  own _ _ := isHandle_of_isOwn
  coded := (root.isWritten_entered e).coded F X.thread _
  move pins h σ L hw hi := by
    have hm := hmeddle _ _ (hS.move σ)
    exact ⟨Scene.meddling he hw hi.1 hm, hm.fits hi.1, hinv _ _ (hS.move σ) hi.2⟩
  onward w w' L hw := lasts_through e verdict hfoot w w' L hw.toFootstep
  guards _ _ _ w L v hw hv hi := by
    have hopen := hw.assembled.guardOpen
    have hstep : Meddles (fun _ => False) root w (World.install F.obstruct w X.guard v).2 :=
      .install F.obstruct hopen (hv.2 rfl)
    exact ⟨hstep.fits hi.1, hguard w v hopen (hv.2 rfl) hi.2⟩
  hears pins s d L σ o n ho _ hg := by
    have ho : o ∈ X.observers := ho
    have hnone : S.body (n.call o) = none := by
      rw [hS.body, heard?_call ho]
      rfl
    have hm := hmeddle _ _ (hS.reply σ (n.call o))
    refine hg.left (occasion?_call ho n) hnone (isHandle_call o n)
      (Scene.meddling he hg.scene hg.inv.1 hm)
      ⟨hm.fits hg.inv.1, hinv _ _ (hS.reply σ _) hg.inv.2⟩ ?_
    have hheard : X.heard σ.calls = Occasion.callbacks L := by
      rw [← callbacks_occasions, show X.occasions σ.calls = _ from hg.heard,
        Occasion.callbacks_filter]
    rw [hS.verdict σ o n, hheard, ← Occasion.callbacks_told]
    rfl
  answers pins h L σ c hc := by
    rw [show (X.through bound root e inv verdict : Setting ε κ).root.asks = [] from
      (root.isWritten_entered e).asks] at hc
    cases hc

/-- **A whole walk is a history to others**: to a walk of another walker, and to whatever does not
rely on the token of the walker. -/
theorem walk_meddles {V : Value → Prop} {D : Document} (hV : Lasting V)
    (hk : ¬ V (.token X.token))
    (hS : X.Surrounded F verdict
      (fun w w' => Meddling X.Intact root w w' ∧ Meddling V D w w') S)
    {w : World ε} (hw : root.Fits bound w) (hX : X.Assembled w) (hi : Held w X .idle) {e : Event}
    (he : e.entersNode = true) :
    S.Yields (fun c _ => c.isHandle = false) (.start w)
      (Walk.send (.walker X.walker) (.entry e) [root.value])
      fun _ σ => Meddling V D w σ.world ∧ root.Fits bound σ.world ∧ X.Assembled σ.world ∧
        Held σ.world X .idle := by
  have hfoot : ∀ w₁ w₂, w₁.Footstep X.token w₂ → Meddling V D w w₁ → Meddling V D w w₂ :=
    fun _ _ hf hi => hi.more (hf.meddles hV hk)
  have hZ : (X.through bound root e (Meddling V D w) verdict).Hosts F S :=
    hS.hosts he (fun _ _ hm => hm.1) (fun _ _ hm hi => hi.trans hm.2) hfoot
      fun _ _ hg hv hi => hi.more (.install F.obstruct hg hv)
  have hscene : Scene X true bound (root.entered e : Agenda κ) [] .idle w :=
    ⟨hX, hi, by simp, hw.entered he⟩
  refine (hZ.walk (lasts_through e verdict hfoot) (Event.ne_announce_of_entersNode he) rfl
    (going_start hscene ⟨hw, .none⟩)).mono ?_
  rintro r σ ⟨hg, -⟩
  exact ⟨hg.inv.2, hg.inv.1, hg.scene.assembled, hg.scene.held⟩

/-- The beginning of a walk about which nothing else is to be said. -/
theorem going_through {w : World ε} {e : Event} (he : e.entersNode = true) (hw : root.Fits bound w)
    (hX : X.Assembled w) (hi : Held w X .idle) :
    (X.through bound root e (fun _ => True) verdict).Going [] .idle [] (.start w : Moment ε κ) :=
  going_start ⟨hX, hi, by simp, hw.entered he⟩ ⟨hw, trivial⟩

/-- **Guards do not show.** A document that has never been guarded is walked in peace, and the same
document is walked after any history and while others go on with it. The callbacks are the same, the
walks end in the same way, and no policy is asked. -/
theorem guards_do_not_show {w₀ w : World ε} {e : Event} (he : e.entersNode = true)
    (hroot : root.Pristine bound w₀) (h₀ : X.Assembled w₀) (hi₀ : Held w₀ X .idle)
    (history : Meddling (fun _ => False) root w₀ w) (h : X.Assembled w) (hi : Held w X .idle)
    {S₀ : Surroundings ε κ} (hS₀ : X.Surrounded F verdict (fun w w' => w' = w) S₀)
    (hS : X.Surrounded F verdict (Meddling X.Intact root) S) :
    ∃ (r₀ r : Outcome) (σ₀ σ : Moment ε κ),
      S₀.Runs (Walk.send (.walker X.walker) (.entry e) [root.value]) (.start w₀) r₀ σ₀ ∧
      S.Runs (Walk.send (.walker X.walker) (.entry e) [root.value]) (.start w) r σ ∧
      X.heard σ.calls = X.heard σ₀.calls ∧ failure? r = failure? r₀ ∧
      ∀ c ∈ σ.calls, c.isHandle = false := by
  have hZ₀ : (X.through bound root e (fun _ => True) verdict).Hosts F S₀ :=
    hS₀.hosts he (fun _ _ hw => hw ▸ .none) (fun _ _ _ _ => trivial)
      (fun _ _ _ _ => trivial) fun _ _ _ _ _ => trivial
  have hZ : (X.through bound root e (fun _ => True) verdict).Hosts F S :=
    hS.hosts he (fun _ _ hm => hm) (fun _ _ _ _ => trivial) (fun _ _ _ _ => trivial)
      fun _ _ _ _ _ => trivial
  have hlasts : (X.through bound root e (fun _ => True) verdict : Setting ε κ).Lasts :=
    lasts_through e verdict fun _ _ _ _ => trivial
  have hannounce := Event.ne_announce_of_entersNode he
  obtain ⟨r₀, σ₀, hruns₀, -, hg₀, hr₀⟩ :=
    hZ₀.walk hlasts hannounce rfl (going_through he hroot.fits h₀ hi₀)
  obtain ⟨r, σ, hruns, hrule, hg, hr⟩ :=
    hZ.walk hlasts hannounce rfl (going_through he (history.fits hroot.fits) h hi)
  have hheard : X.occasions σ.calls = X.occasions σ₀.calls := hg.heard.trans hg₀.heard.symm
  refine ⟨r₀, r, σ₀, σ, hruns₀, hruns, ?_, hr.trans hr₀.symm, fun c hc => ?_⟩
  · rw [← callbacks_occasions, hheard, callbacks_occasions]
  · rcases hruns.calls c hc with hc | ⟨σ₁, hσ₁⟩
    · cases hc
    · exact hrule c σ₁ hσ₁

/-! ## A small document -/

/-- Surroundings in which others act before each step and during each callback, and no callback
fails. -/
def among (X : Cast) (F : Foreign ε κ) (act : Moment ε κ → World ε) : Surroundings ε κ where
  body c := if (X.heard? c).isSome then none else some (Walk.body F X.thread c)
  move := act
  reply σ _ := (.ok .none, act σ)

theorem surrounded_among {act : Moment ε κ → World ε} (h : ∀ σ, meddle σ.world (act σ)) :
    X.Surrounded F (fun _ => none) meddle (X.among F act) where
  body _ := rfl
  move := h
  reply σ _ := h σ
  verdict _ _ _ := rfl

namespace Crowd

/-- The foreign code of the small document. -/
def foreign : Foreign Unit Empty := .silent .numberTooLarge

/-- The guard of another walker. -/
def guard : Ref .guard := ⟨0⟩

/-- The small document with an observer and with the guard of another walker. -/
def furnished : World Unit :=
  { Document.loginWorld with
    observers := ⟨#[⟨.recording, 0, []⟩]⟩
    guards := ⟨#[.new .none .none .none (.bool true)]⟩ }

/-- The world after a walker has been made. -/
def calm : World Unit :=
  Act.assembled furnished ([⟨0⟩].map .observer) .none .none (.float .zero) .none (.bool true)
    .empty .empty .empty furnished.lists

/-- Who takes part in the walks of the walker. -/
def cast : Cast := Act.castFor furnished [⟨0⟩] (.float .zero) default

/-- The other guard is put on a node, if it answers as guards do. -/
def tag (w : World Unit) (r : Ref .node) : World Unit :=
  if ((w.carried (.guard guard)).map Prod.fst).all (fun name => (Message.ofName? name).isNone) ∧
      w.Plain (.node r) then
    (World.install foreign.obstruct w guard (.node r)).2
  else w

/-- The world after the other guard has been put on two nodes and taken off one of them. -/
def tagged : World Unit := (World.uninstall (tag (tag calm ⟨1⟩) ⟨4⟩) (.node ⟨1⟩)).2

/-- Before some of the steps of the walk the other guard is put on a node, before others whatever
guard there is on a node is taken off. -/
def busy (σ : Moment Unit Empty) : World Unit :=
  if σ.tick % 2 = 0 then tag σ.world ⟨σ.tick % 7⟩ else (σ.world.uninstall (.node ⟨σ.tick % 5⟩)).2

variable {V : Value → Prop} {root : Document}

theorem meddling_tag (w : World Unit) (r : Ref .node) : Meddling V root w (tag w r) := by
  unfold tag
  split
  · rename_i h
    exact .more .none (.install _ (World.unhidden_of_names h.1) h.2)
  · exact .none

theorem meddling_tagged : Meddling V root calm tagged :=
  ((meddling_tag _ _).trans (meddling_tag _ _)).more (.uninstall _)

theorem meddling_busy (σ : Moment Unit Empty) : Meddling V root σ.world (busy σ) := by
  unfold busy
  split
  · exact meddling_tag _ _
  · exact .more .none (.uninstall _)

theorem pristine : Document.login.Pristine (4 : Nat) calm := by
  constructor <;> decide

theorem assembled : cast.Assembled calm :=
  Act.assembled_assembled (by simp [furnished, Store.get, ObserverClass.kind]) (fun _ => rfl)
    ⟨_, rfl⟩ default

theorem held : Held calm cast .idle := Act.assembled_held default

/-- Nothing that has been put on nodes concerns the walker. -/
theorem frame_tagged : World.Frame cast.Intact calm tagged :=
  (meddling_tagged : Meddling _ .login _ _).frame cast.lasting_intact

end Crowd

open Crowd in
/-- The small document has been guarded by another walker, and goes on being guarded and unguarded
during a walk: the callbacks are those of a walk in peace. -/
theorem guards_do_not_show_in_small_document :
    ∃ (r₀ r : Outcome) (σ₀ σ : Moment Unit Empty),
      (cast.among foreign Moment.world).Runs
        (Walk.send (.walker cast.walker) (.entry .features) [Document.login.value])
        (.start calm) r₀ σ₀ ∧
      (cast.among foreign busy).Runs
        (Walk.send (.walker cast.walker) (.entry .features) [Document.login.value])
        (.start tagged) r σ ∧
      cast.heard σ.calls = cast.heard σ₀.calls ∧ failure? r = failure? r₀ ∧
      ∀ c ∈ σ.calls, c.isHandle = false := by
  refine guards_do_not_show rfl pristine assembled held meddling_tagged ?_ ?_
    (surrounded_among fun _ => rfl) (surrounded_among meddling_busy)
  · exact assembled.frame frame_tagged fun v hv => .inl hv
  · exact held.frame frame_tagged (frame_tagged.carried _ (.inr rfl))

end Cast

end GuardedWalk
