import GuardedWalk.Proofs.Run.Filling
import GuardedWalk.Proofs.Walk.Woven

/-!
# Observers that call the walker

While it is told something, an observer can call entry methods of the walker that tells it. What it
calls may depend on all that it and its like have been told, and is told to all observers, who may
call the walker then in turn. Here it is assumed that they stop doing so sooner or later. Then the
walk comes to an end, and what each observer hears is balanced.

What happens in the callbacks of a walk is left out first, as if others had answered them. By
induction on how often the walker can still be called, each callback can be answered: an observer
that calls the walker in it sets off what is a walk in the same surroundings. What was left out is
filled in afterwards.

## Main definitions

* `GuardedWalk.Foreign.calling` — foreign code of observers that call the walker.
* `GuardedWalk.Audience.Poised` — such observers are ready to be told something.

## Main results

* `GuardedWalk.Audience.answered` — each callback can be answered.
* `GuardedWalk.Audience.hears_balanced` — what each observer hears is balanced.
-/

set_option autoImplicit false

namespace GuardedWalk

open Surroundings

variable {ε κ : Type}

/-- Foreign code of observers that call entry methods of a walker, given all that they have been
told. -/
def Foreign.calling (F : Foreign (List Callback) κ) (plan : List Callback → Agenda κ)
    (walker : Value) : Foreign (List Callback) κ :=
  F.mindful fun history => (plan history).perform walker

/-- The agendas that observers go through at some time. -/
def Planned (plan : List Callback → Agenda κ) (B : Agenda κ) : Prop :=
  ∃ history, plan history = B

theorem Scene.withRoot {X : Cast} {strict : Bool} {D : Ref .list → Prop} {root root' : Agenda κ}
    {pins : List Pin} {h : Hold} {w : World ε} (hs : Scene X strict D root pins h w)
    (hfits : root'.Fits strict D w) : Scene X strict D root' pins h w :=
  ⟨hs.assembled, hs.held, hs.pinned, hfits⟩

/-! ## What is heard of calls -/

namespace Cast

variable {X : Cast} {extra : Agenda κ → Prop}

/-- Whether a call is a callback. -/
def isHeard (X : Cast) (c : Call κ) : Bool := (X.heard? c).isSome

theorem isHeard_of_isOwn {c : Call κ} (hc : X.isOwn c = true) : X.isHeard c = false := by
  have hnone := occasion?_of_isOwn hc
  cases c with
  | send v m args => simpa [isHeard, occasion?] using hnone
  | _ => rfl

theorem heard_cons {o : Ref .observer} (ho : o ∈ X.observers) (n : Told) (l : List (Call κ)) :
    X.heard (n.call o :: l) = (o, n) :: X.heard l := by
  rw [heard, List.filterMap_cons, heard?_call ho]
  rfl

/-- Some callbacks come of an agenda that is gone through, and of what is said in between. -/
def Echoes (X : Cast) (extra : Agenda κ → Prop) (L : List Callback) : Prop :=
  ∃ B, extra B ∧ ∃ l, l.map (fun p => p.2.callback) = L ∧
    Resounds X extra (X.deliveries B.notices) l

/-- If all that is heard of the calls that are made in callbacks is that agendas are gone through,
then the calls of the whole run let this be heard between the callbacks. -/
theorem resounds_of_filled {calls calls' : List (Call κ)}
    (h : Filled X.isHeard (fun _ l => X.Echoes extra (X.heard l)) calls calls') {ds : List Delivery}
    (hds : ds.map Delivery.callback = X.heard calls) :
    ∃ l, l.map (fun p => p.2.callback) = X.heard calls' ∧ Resounds X extra ds l := by
  induction h generalizing ds with
  | nil =>
    obtain rfl := List.map_eq_nil_iff.1 hds
    exact ⟨[], rfl, .nil⟩
  | @own c calls calls' hc _ ih =>
    have hnone : X.heard? c = none := by simpa [isHeard] using hc
    have hskip : ∀ l : List (Call κ), X.heard (c :: l) = X.heard l := fun l =>
      List.filterMap_cons_none hnone
    rw [hskip] at hds ⊢
    exact ih hds
  | @put c calls calls' n hc hn _ ih =>
    obtain ⟨b, hb⟩ := Option.isSome_iff_exists.1 hc
    have hcons : ∀ l : List (Call κ), X.heard (c :: l) = b :: X.heard l := fun l =>
      List.filterMap_cons_some hb
    rw [hcons] at hds
    obtain ⟨d, ds, rfl, hd, hds⟩ := List.map_eq_cons_iff.1 hds
    obtain ⟨B, hB, l, hl, hin⟩ := hn
    obtain ⟨m, hm, hrest⟩ := ih hds
    refine ⟨(false, d) :: aside l ++ m, ?_, .cons d hB hin hrest⟩
    rw [List.cons_append, List.cons_append, hcons, heard, List.filterMap_append]
    simp only [List.map_cons, List.map_append, hd, aside, List.map_map, Function.comp_def, hl, hm,
      heard]

end Cast

namespace Audience

/-- An audience is ready to be told something, and calls the walker a limited number of times: what
it calls then are entry methods that can be called. -/
structure Poised (P : Audience) (family : Agenda κ → Prop) (bound left : Nat)
    (w : World (List Callback)) : Prop where
  listens : ∃ records, P.Listens records w
  fits : ∀ B, family B → B.Fits false P.lists w
  near : bound ≤ w.foreign.length + left

/-- What calls stand for while observers call the walker. -/
abbrev body (F : Foreign (List Callback) κ) (X : Cast) (plan : List Callback → Agenda κ) :
    Call κ → Walk.Steps (List Callback) κ Value :=
  Walk.body (F.calling plan (.walker X.walker)) X.thread

/-- A walk through some agenda in front of such an audience. -/
def calling (P : Audience) (F : Foreign (List Callback) κ) (X : Cast)
    (plan : List Callback → Agenda κ) (family : Agenda κ → Prop) (bound left : Nat)
    (root : Agenda κ) : Setting (List Callback) κ where
  cast := X
  strict := false
  lists := P.lists
  root
  inv w _ := P.Poised family bound left w
  verdict _ := none
  rule c σ := X.isHeard c = true → ∃ o w' l,
    Answers (body F X plan) σ.world c o w' l ∧
      X.Echoes (Planned plan) (X.heard l)

section Calling

variable {P : Audience} {F : Foreign (List Callback) κ} {X : Cast}
  {plan : List Callback → Agenda κ} {family : Agenda κ → Prop} {bound left : Nat}
  {root : Agenda κ} {w w' : World (List Callback)} {pins : List Pin} {h : Hold}

theorem Poised.mono (hp : P.Poised family bound left w) {left' : Nat} (hle : left ≤ left') :
    P.Poised family bound left' w :=
  { hp with near := Nat.le_trans hp.near (Nat.add_le_add_left hle _) }

theorem Poised.footstep (hp : P.Poised family bound left w) (hf : w.Footstep X.token w') :
    P.Poised family bound left w' where
  listens := by
    obtain ⟨records, hl⟩ := hp.listens
    exact ⟨records, hl.mild hf.toMild⟩
  fits B hB := (hp.fits B hB).mild hf.toMild fun _ _ hm => hf.marked hm
  near := by
    rw [hf.foreign]
    exact hp.near

/-- The guard of the walker is put on a value. -/
theorem Poised.install (hp : P.Poised family bound left w)
    (hs : Scene X false P.lists root pins h w) (obstruct : Obstruction (List Callback)) {v : Value}
    (hv : w.Guardable false v) :
    P.Poised family bound left (World.install obstruct w X.guard v).2 := by
  obtain ⟨records, hl⟩ := hp.listens
  obtain ⟨b, w', hrun, hstill, hmarks⟩ := World.install_run obstruct hv.1 hs.assembled.guardOpen
  rw [hrun]
  exact {
    listens := ⟨records, hl.mild hstill.toMild⟩
    fits := fun B hB => (hp.fits B hB).mild hstill.toMild fun r own hm => (hmarks r own hm).1
    near := by rw [hstill.foreign]; exact hp.near }

/-- An audience and the scene of a walk after something has been done beside the walk. -/
theorem Poised.peaceful (hp : P.Poised family bound left w)
    (hs : Scene X false P.lists root pins h w) (hw : World.Peaceful X P.lists w w')
    (hlistens : ∃ records, P.Listens records w') (hforeign : w.foreign.length ≤ w'.foreign.length) :
    P.Poised family bound left w' ∧ Scene X false P.lists root pins h w' :=
  ⟨⟨hlistens, fun B hB => (hw.scene (hs.withRoot (hp.fits B hB))).fits,
    Nat.le_trans hp.near (Nat.add_le_add_right hforeign _)⟩, hw.scene hs⟩

/-- What is assumed of the agendas that are gone through: they can be, and nobody else is asked
anything. -/
structure Family (F : Foreign (List Callback) κ) (X : Cast) (plan : List Callback → Agenda κ)
    (family : Agenda κ → Prop) (bound : Nat) : Prop where
  planned : ∀ history, family (plan history)
  coded : ∀ B, family B →
    B.Coded (F.calling plan (.walker X.walker)) X.thread (.walker X.walker)
  asks : ∀ B, family B → B.asks = []
  ends : ∀ history, bound ≤ history.length → plan history = .done

/-- A callback in which nobody calls the walker lets nobody hear of anything. -/
theorem Family.echoes_nil (hB : Family F X plan family bound) (o : Ref .observer) :
    X.Echoes (Planned plan) [] := by
  have hdone : Planned plan (.done : Agenda κ) :=
    ⟨List.replicate bound (o, .after), hB.ends _ (by simp)⟩
  exact ⟨.done, hdone, [], rfl, .nil⟩

/-! ## Callbacks are answered -/

section Answers

variable {s : Ref .session} {d : Nat} {o : Ref .observer}

/-- What is to be shown of a callback: it does not fail, the audience is as ready as before, the
scene of the walk is as it was, and others have heard of an agenda. -/
structure Served (P : Audience) (X : Cast) (plan : List Callback → Agenda κ)
    (family : Agenda κ → Prop) (bound left : Nat) (root : Agenda κ) (pins : List Pin) (h : Hold)
    (b : Callback) (r : Outcome) (σ : Moment (List Callback) κ) : Prop where
  fine : failure? r = none
  poised : P.Poised family bound left σ.world
  scene : Scene X false P.lists root pins h σ.world
  echoes : ∃ L, X.heard σ.calls = b :: L ∧ X.Echoes (Planned plan) L

theorem heard_calling (ho : o ∈ X.observers) (n : Told) (w : World (List Callback)) :
    X.heard ((Moment.start w).calling (n.call o : Call κ)).calls = [(o, n)] :=
  Cast.heard_cons ho n []

/-- A recorder serves. -/
theorem Family.recorder_yields (hB : Family F X plan family bound)
    (hp : P.Poised family bound left w) (hs : Scene X false P.lists root pins h w)
    {R : Recorder} (hR : R ∈ P.recorders) (hX : R.observer ∈ X.observers) (n : Told) :
    (alone (body F X plan)).Yields (.free _ κ)
      ((Moment.start w).calling (n.call R.observer))
      (body F X plan (n.call R.observer))
      (P.Served X plan family bound left root pins h (R.observer, n)) := by
  obtain ⟨records, hl⟩ := hp.listens
  have hopen : ((Moment.start w).calling (n.call R.observer : Call κ)).window = .open := by
    cases n <;> rfl
  refine Recorder.told_yields (fun _ _ _ _ _ => trivial) (hl.notes R hR) hopen n
    fun σ hj => ?_
  have hlistens : P.Listens (recordsAfter records ([] ++ [(R.observer, n)])) σ.world := by
    refine hl.jots hR (σ := (Moment.start w).calling (n.call R.observer)) ?_
      fun R' _ hne => recordsAfter_of_ne (Ne.symm hne)
    rw [recordsAfter_self]
    exact hj
  have hpeace : World.Peaceful X P.lists w σ.world := by
    refine hj.beside.peaceful (fun l hl' => ⟨?_, ?_⟩) X
    · rintro rfl
      exact (hl.notes R hR).notesApart hl'
    · rintro rfl
      exact (hl.notes R hR).openApart hl'
  have hforeign : σ.world.foreign = w.foreign := by
    obtain ⟨ls, ts, hw, -, -⟩ := hj.world
    rw [hw]
    rfl
  obtain ⟨hpoised, hscene⟩ :=
    hp.peaceful hs hpeace ⟨_, hlistens⟩ (Nat.le_of_eq (congrArg List.length hforeign.symm))
  refine ⟨rfl, hpoised, hscene, [], ?_, hB.echoes_nil R.observer⟩
  rw [← heard_calling (κ := κ) hX n w, ← Cast.callbacks_occasions, hj.heard,
    Cast.callbacks_occasions]

/-- A callback calls the walker as an agenda says, if walks through the agenda go well. What others
hear meanwhile is what is on the agenda, with what is heard in each of the callbacks on it. -/
theorem Family.perform_yields (hB : Family F X plan family bound) {B : Agenda κ}
    (hplanned : Planned plan B) {σ : Moment (List Callback) κ}
    (hp : P.Poised family bound left σ.world)
    (hs : Scene X false P.lists root pins (.owned s d) σ.world) (hroot : family root)
    (hZ : (P.calling F X plan family bound left B).Hosts (F.calling plan (.walker X.walker))
      (without (body F X plan) X.isHeard)) :
    (alone (body F X plan)).Yields (.free _ κ) σ (B.perform (.walker X.walker)) fun r σ' =>
      failure? r = none ∧ P.Poised family bound left σ'.world ∧
        Scene X false P.lists root pins (.owned s d) σ'.world ∧
        ∃ L, X.heard σ'.calls = X.heard σ.calls ++ L ∧ X.Echoes (Planned plan) L := by
  obtain ⟨history, rfl⟩ := hplanned
  have hgoing : (P.calling F X plan family bound left (plan history)).Going pins (.owned s d) []
      (.start σ.world) :=
    ⟨hs.withRoot (hp.fits _ (hB.planned history)), hp, rfl, rfl⟩
  have hdelivers : (P.calling F X plan family bound left (plan history)).Delivers
      (without (body F X plan) X.isHeard) pins (.owned s d)
      ((plan history).perform (.walker X.walker)) ((plan history).occasions X) :=
    .perform hZ ((Setting.within_root hZ).plays hZ) fun c hc => hc
  have htells := hdelivers [] (.start σ.world) hgoing
  rw [Setting.Tells, Setting.tell_of_verdict fun _ => rfl] at htells
  -- what is heard in the callbacks on the agenda is put in where they were left out
  refine (htells.fill (N := fun _ l => X.Echoes (Planned plan) (X.heard l)) (τ := σ)
    (fun c σ hc => hc) rfl).mono ?_
  rintro r σ' ⟨σ₂, l, m, ⟨hg, hr⟩, hw, hl, hm, hfilled⟩
  obtain rfl : σ₂.calls = l := hl
  have hpoised : P.Poised family bound left σ'.world := hw ▸ hg.inv
  have hsaid : (X.deliveries (plan history).notices).map Delivery.callback = X.heard σ₂.calls := by
    rw [Cast.callback_deliveries, ← Cast.callbacks_occasions,
      show X.occasions σ₂.calls = _ from hg.heard, Occasion.callbacks_filter]
    exact (Agenda.callbacks_occasions X (plan history)).symm
  refine ⟨hr, hpoised, ?_, X.heard m, ?_, plan history, ⟨history, rfl⟩,
    Cast.resounds_of_filled hfilled hsaid⟩
  · rw [hw]
    exact hg.scene.withRoot (hw ▸ hpoised.fits root hroot)
  · rw [hm, Cast.heard, Cast.heard, Cast.heard, List.filterMap_append]

/-- An observer that calls the walker serves, if walks that begin in its callbacks go well. -/
theorem Family.caller_yields (hB : Family F X plan family bound)
    (hp : P.Poised family bound left w)
    (hs : Scene X false P.lists root pins (.owned s d) w) (hroot : family root)
    (ho : o ∈ P.others) (hX : o ∈ X.observers) (n : Told)
    (hwalks : ∀ left', left = left' + 1 → ∀ B, family B →
      (P.calling F X plan family bound left' B).Hosts (F.calling plan (.walker X.walker))
        (without (body F X plan) X.isHeard)) :
    (alone (body F X plan)).Yields (.free _ κ)
      ((Moment.start w).calling (n.call o))
      (body F X plan (n.call o))
      (P.Served X plan family bound left root pins (.owned s d) (o, n)) := by
  obtain ⟨records, hl⟩ := hp.listens
  have hopen : ((Moment.start w).calling (n.call o : Call κ)).window = .open := by
    cases n <;> rfl
  refine Walk.mindful_yields (fun _ _ _ _ _ => trivial) (hl.scripted o ho) hs.assembled.events
    hopen n fun σ₁ h₁ hforeign => ?_
  have hforeign : σ₁.world.foreign = w.foreign ++ [(o, n)] := hforeign
  have hlength : σ₁.world.foreign.length = w.foreign.length + 1 := by simp [hforeign]
  have hpeace : World.Peaceful X P.lists w σ₁.world := h₁.beside.peaceful (fun l hl => .inl hl) X
  obtain ⟨hpoised, hscene⟩ := hp.peaceful hs hpeace ⟨_, hl.beside h₁.beside⟩ (by omega)
  have hheard : X.heard σ₁.calls = [(o, n)] := by
    rw [← heard_calling hX n w, ← Cast.callbacks_occasions, h₁.turns.occasions,
      Cast.callbacks_occasions]
  cases left with
  | zero =>
    -- so many callbacks have been heard by now that nobody calls the walker in this one
    have hdone : plan (w.foreign ++ [(o, n)]) = .done := by
      refine hB.ends _ ?_
      have hnear := hp.near
      rw [List.length_append]
      omega
    show Yields _ _ σ₁ ((plan (w.foreign ++ [(o, n)])).perform (.walker X.walker)) _
    rw [hdone]
    exact .pure ⟨rfl, hpoised, hscene, [], hheard, hB.echoes_nil o⟩
  | succ left =>
    have hfewer : P.Poised family bound left σ₁.world :=
      { hpoised with near := by have := hp.near; omega }
    refine (hB.perform_yields ⟨w.foreign ++ [(o, n)], rfl⟩ hfewer hscene hroot
      (hwalks left rfl _ (hB.planned _))).mono ?_
    rintro r σ ⟨hr, hpoised', hscene', L, hL, hechoes⟩
    exact ⟨hr, hpoised'.mono (Nat.le_succ left), hscene', L, by rw [hL, hheard]; rfl, hechoes⟩

/-- So every observer serves. -/
theorem Family.serves (hB : Family F X plan family bound) (hX : P.Hears X)
    (hp : P.Poised family bound left w)
    (hs : Scene X false P.lists root pins (.owned s d) w) (hroot : family root)
    (ho : o ∈ X.observers) (n : Told)
    (hwalks : ∀ left', left = left' + 1 → ∀ B, family B →
      (P.calling F X plan family bound left' B).Hosts (F.calling plan (.walker X.walker))
        (without (body F X plan) X.isHeard)) :
    (alone (body F X plan)).Yields (.free _ κ)
      ((Moment.start w).calling (n.call o))
      (body F X plan (n.call o))
      (P.Served X plan family bound left root pins (.owned s d) (o, n)) := by
  rcases hX o ho with hother | ⟨R, hR, rfl⟩
  · exact hB.caller_yields hp hs hroot hother ho n hwalks
  · exact hB.recorder_yields hp hs hR ho n

end Answers

/-- Walks can go on in front of such an audience if those can that begin in its callbacks. -/
theorem Family.hosts_of (hB : Family F X plan family bound) (hX : P.Hears X)
    (hwalks : ∀ left', left = left' + 1 → ∀ B, family B →
      (P.calling F X plan family bound left' B).Hosts (F.calling plan (.walker X.walker))
        (without (body F X plan) X.isHeard)) (hroot : family root) :
    (P.calling F X plan family bound left root).Hosts (F.calling plan (.walker X.walker))
      (without (body F X plan) X.isHeard) where
  body c hc := by
    have hown : X.isHeard c = false := Cast.isHeard_of_isOwn hc
    show (if X.isHeard c then none else some _) = _
    rw [hown]
    rfl
  own c σ hc hheard := by
    have hc : X.isOwn c = true := hc
    rw [Cast.isHeard_of_isOwn hc] at hheard
    cases hheard
  move _ _ _ _ hw hi := ⟨hw, hi⟩
  coded := hB.coded root hroot
  onward _ _ _ hf hi := hi.footstep hf.toFootstep
  guards _ _ _ _ _ _ hs hv hi := hi.install hs _ hv
  hears pins s d L σ o n ho _ hg := by
    have ho : o ∈ X.observers := ho
    have hput : X.isHeard (n.call o : Call κ) = true := by
      rw [Cast.isHeard, Cast.heard?_call ho]
      rfl
    have hs : Scene X false P.lists root pins (.owned s d) σ.world := hg.scene
    obtain ⟨r, σ', l, hanswers, hcalls, hserved⟩ :=
      Answers.of_yields (hB.serves hX hg.inv hs hroot ho n hwalks)
    obtain ⟨M, hM, hechoes⟩ := hserved.echoes
    rw [hcalls, Cast.heard_cons ho] at hM
    obtain rfl := (List.cons.inj hM).2
    have hreply := reply_without (p := X.isHeard) hanswers
    refine hg.left (Cast.occasion?_call ho n) (if_pos hput) (fun _ => ⟨r, _, l, hanswers, hechoes⟩)
      ?_ ?_ ?_
    · rw [hreply]
      exact hserved.scene
    · rw [hreply]
      exact hserved.poised
    · rw [hreply]
      exact hserved.fine
  answers pins h L σ c hc := by
    rw [show (P.calling F X plan family bound left root).root.asks = [] from
      hB.asks root hroot] at hc
    cases hc

/-- **Walks can go on in front of an audience that calls the walker**: by induction on how often it
can still do so. -/
theorem Family.hosts (hB : Family F X plan family bound) (hX : P.Hears X) (left : Nat) :
    ∀ root, family root → (P.calling F X plan family bound left root).Hosts
      (F.calling plan (.walker X.walker)) (without (body F X plan) X.isHeard) := by
  induction left with
  | zero => exact fun root hroot => hB.hosts_of hX (fun _ h => by cases h) hroot
  | succ left ih =>
    refine fun root hroot => hB.hosts_of hX (fun left' h => ?_) hroot
    obtain rfl := Nat.succ.inj h
    exact ih

end Calling

/-! ## Walks in front of an audience that calls the walker -/

/-- **What each observer hears is balanced.** While it is told something, an observer calls entry
methods of the walker, or lets it announce something, as its plan says, which depends on all that
its like have been told so far and comes to an end. What it calls is told to all observers, who can
call the walker in turn. Such a walk through a document comes to an end, and fails only if it cannot
begin. Otherwise each observer that is registered once hears what the document says, with what has
been called in between: each end that it is told of is that of the event that has begun last and not
ended, all that is said about an event stands between its beginning and its end, and what remains
without what has been called in between is what the document says. -/
theorem hears_balanced {P : Audience} {F : Foreign (List Callback) κ} {X : Cast}
    {plan : List Callback → Agenda κ} {bound : Nat} {D : Document} {e : Event}
    {records : Recorder → Record} {w : World (List Callback)} (hD : D.Fits P.lists w)
    (hX : X.Assembled w) (hidle : Held w X .idle) (he : e.entersNode = true) (hhears : P.Hears X)
    (honce : X.observers.Nodup) (hP : P.Listens records w)
    (hfits : ∀ history, (plan history).Fits false P.lists w)
    (hcoded : ∀ history,
      (plan history).Coded (F.calling plan (.walker X.walker)) X.thread (.walker X.walker))
    (hasks : ∀ history, (plan history).asks = [])
    (hends : ∀ history, bound ≤ history.length → plan history = .done) :
    ∃ (r : Outcome) (σ : Moment (List Callback) κ),
      (alone (Walk.body (F.calling plan (.walker X.walker)) X.thread)).Runs
        (Walk.send (.walker X.walker) (.entry e) [D.value]) (.start w) r σ ∧
      failure? r = (if X.timeout.outlastsTime then some .numberTooLarge else none) ∧
      (failure? r = none → ∀ o ∈ X.observers, ∃ ns : List (Bool × Notice),
        toldTo o (X.heard σ.calls) = ns.map (fun p => p.2.told) ∧
        Woven (Planned plan) (D.entered e) ns ∧ Balanced (ns.map Prod.snd) ∧
        proper ns = around e [D.value] D.inside) := by
  let A : Agenda κ := D.entered e
  let family : Agenda κ → Prop := fun B => B = A ∨ Planned plan B
  have hB : Family F X plan family bound := {
    planned := fun history => .inr ⟨history, rfl⟩
    coded := by
      rintro B (rfl | ⟨history, rfl⟩)
      · exact (D.isWritten_entered e).coded _ _ _
      · exact hcoded history
    asks := by
      rintro B (rfl | ⟨history, rfl⟩)
      · exact (D.isWritten_entered e).asks
      · exact hasks history
    ends := hends }
  have hpoised : P.Poised family bound bound w := {
    listens := ⟨records, hP⟩
    fits := by
      rintro B (rfl | ⟨history, rfl⟩)
      · exact hD.entered he
      · exact hfits history
    near := Nat.le_add_left _ _ }
  have hgoing : (P.calling F X plan family bound bound A).Going [] .idle [] (.start w) :=
    ⟨⟨hX, hidle, by simp, hD.entered he⟩, hpoised, rfl, rfl⟩
  have hwalk := (hB.hosts hhears bound A (.inl rfl)).walk (fun _ _ _ hf hi => hi.footstep hf)
    (Event.ne_announce_of_entersNode he) rfl hgoing
  obtain ⟨r, σ, hruns, -, σ₀, l, m, ⟨hg, hr⟩, -, hl, hm, hfilled⟩ :=
    hwalk.fill (N := fun _ l => X.Echoes (Planned plan) (X.heard l)) (τ := .start w)
      (fun c σ hc => hc) rfl
  obtain rfl : σ₀.calls = l := hl
  obtain rfl : σ.calls = m := hm
  have hheard : Occasion.callbacks
      ((P.calling F X plan family bound bound A).outcome []).1 = X.heard σ₀.calls := by
    rw [← Cast.callbacks_occasions, show X.occasions σ₀.calls = _ from hg.heard,
      Occasion.callbacks_filter]
  rw [Setting.outcome, Setting.tell_of_verdict fun _ => rfl] at hr hheard
  have hcast : (P.calling F X plan family bound bound A).cast = X := rfl
  have hroot : (P.calling F X plan family bound bound A).root = A := rfl
  rw [hcast, hroot] at hr hheard
  refine ⟨r, σ, hruns, ?_, fun hfine o ho => ?_⟩
  · rw [hr]
    split <;> rfl
  · by_cases hlong : X.timeout.outlastsTime = true
    · rw [hr, if_pos hlong] at hfine
      cases hfine
    · rw [if_neg hlong, List.nil_append, Agenda.callbacks_occasions] at hheard
      obtain ⟨l, hl, hresounds⟩ := Cast.resounds_of_filled hfilled
        ((X.callback_deliveries A.notices).trans hheard)
      have hwoven := hresounds.woven ho honce
      refine ⟨partOf o l, ?_, hwoven, hwoven.balanced, ?_⟩
      · rw [← hl]
        exact toldTo_callbacks o l
      · rw [hwoven.proper]
        exact D.notices_entered e

/-! ## A small document -/

namespace Interjecting

open Pair

/-- The steps of the small document. -/
def steps : Document :=
  .steps ⟨3⟩ ⟨2⟩ [.step ⟨4⟩ (.text "Given ") .none
    (some (.pyString ⟨5⟩ (.text "a letter"))) (.text "passed") .none (.int 4) .none]

/-- What the observer calls that runs foreign code: it lets something be announced, and the walker
go through the steps. -/
def calls : Agenda Empty :=
  .entry .announce [.text "again"] none .done (steps.entered .steps)

/-- It does so when it is told something for the first and for the third time. -/
def plan (history : List Callback) : Agenda Empty :=
  if history.length = 1 ∨ history.length = 3 then calls else .done

theorem isWritten_plan (history : List Callback) : (plan history).IsWritten := by
  unfold plan
  split
  · exact ⟨by simp, trivial, steps.isWritten_entered .steps⟩
  · trivial

theorem fits_plan (history : List Callback) : (plan history).Fits false audience.lists world := by
  have hsteps : steps.Pristine (4 : Nat) world := by
    constructor <;> decide
  have htext : world.Plain (.text "again") := fun r h => by cases h
  unfold plan
  split
  · refine ⟨rfl, fun v hv => ?_, .leaf rfl, trivial, hsteps.fits.entered rfl⟩
    obtain rfl := Option.some.inj hv
    exact htext.guardable false
  · trivial

theorem plan_ends (history : List Callback) (h : 4 ≤ history.length) : plan history = .done := by
  rw [plan, if_neg (by omega)]

end Interjecting

open Pair Interjecting in
/-- The observers of the small document hear what it says and, twice, what one of them calls in
between. -/
theorem hears_small_document_balanced :
    ∃ (r : Outcome) (σ : Moment (List Callback) Empty),
      (alone (Walk.body (code.calling plan (.walker cast.walker)) cast.thread)).Runs
        (Walk.send (.walker cast.walker) (.entry .features) [Document.login.value])
        (.start world) r σ ∧
      failure? r = none ∧
      ∀ o ∈ cast.observers, ∃ ns : List (Bool × Notice),
        toldTo o (cast.heard σ.calls) = ns.map (fun p => p.2.told) ∧ Balanced (ns.map Prod.snd) ∧
          proper ns = around .features [Document.login.value] Document.login.inside := by
  obtain ⟨r, σ, hruns, hr, hheard⟩ :=
    hears_balanced (F := code) (e := .features) fits assembled held rfl hears (by decide) listens
      fits_plan (fun history => (isWritten_plan history).coded _ _ _)
      (fun history => (isWritten_plan history).asks) plan_ends
  rw [if_neg (by decide)] at hr
  refine ⟨r, σ, hruns, hr, fun o ho => ?_⟩
  obtain ⟨ns, hns, -, hbalanced, hproper⟩ := hheard hr o ho
  exact ⟨ns, hns, hbalanced, hproper⟩

end Audience

end GuardedWalk
