import GuardedWalk.Proofs.Choir.Tally
import GuardedWalk.Proofs.Nesting.History
import GuardedWalk.Proofs.Walk.Footprint

/-!
# Walks in the history of a recorder

A walk tells its observers about everything on its agenda, up to the first failure. If a recorder is
among them, the walk is a part of its history, whatever others do meanwhile, as long as they leave
alone the recorder and what the walk relies on. How the walk ends is nothing to the recorder. What
comes to be noted in a walk that does not fail is the same, whatever has been noted before.

## Main definitions

* `GuardedWalk.Cast.Noted` — surroundings of a walk in which a recorder takes notes.
* `GuardedWalk.Recorder.Follows` — what holds at the end of all walks through an agenda.
* `GuardedWalk.Recorder.fullNames` — a complete walk in the words of a recorder.

## Main results

* `GuardedWalk.Cast.noted_notedly` — there are such surroundings, however others end.
* `GuardedWalk.Recorder.Hears.follows` — a walk is a part of the history of a recorder.
* `GuardedWalk.Recorder.record_complete` — what is noted in a complete walk.
-/

set_option autoImplicit false

namespace GuardedWalk

open Audience (toldTo toldTo_append toldTo_callback)
open Surroundings (Answers)
open World (Peaceful)

variable {ε κ : Type} {X : Cast} {F : Foreign ε κ} {D : Ref .list → Prop} {A : Agenda κ}
  {R : Recorder} {w w' w₀ : World ε} {cs : List Cue} {e : Event} {args : List Value}
  {S : Surroundings ε κ} {verdict : List (Occasion κ) → Option Failure}

namespace Recorder

theorem Rests.refl (R : Recorder) (w : World ε) : R.Rests w w :=
  ⟨rfl, fun _ _ => rfl, rfl, rfl, .refl _ _⟩

end Recorder

namespace Cast

/-! ## Surroundings in which notes are taken -/

/-- Surroundings of a walk in which a recorder takes notes of what it is told. Nobody else touches
what the recorder reads and writes. -/
structure Noted (X : Cast) (F : Foreign ε κ) (D : Ref .list → Prop) (R : Recorder)
    (verdict : List (Occasion κ) → Option Failure) (S : Surroundings ε κ) : Prop
    extends X.Attended F D verdict S where
  rests : ∀ σ, R.Rests σ.world (S.move σ)
  notes : ∀ (σ : Moment ε κ) k (n : Told) o w' l, R.Keeps D k σ.world →
    Answers (Walk.body F X.thread) σ.world (n.call R.observer) o w' l →
    S.reply σ (n.call R.observer) = (o, w')
  others : ∀ σ c, (∀ n : Told, c ≠ n.call R.observer) → R.Rests σ.world (S.reply σ c).2

open Classical in
/-- Surroundings in which nothing happens but that a recorder takes notes and that others answer
what they are asked. -/
noncomputable def notedly (X : Cast) (F : Foreign ε κ) (D : Ref .list → Prop) (R : Recorder)
    (verdict : List (Occasion κ) → Option Failure) : Surroundings ε κ :=
  { X.quietly F verdict with
    reply := fun σ c =>
      if ∃ (n : Told) (k : Record), c = n.call R.observer ∧ R.Keeps D k σ.world then
        (Surroundings.without (Walk.body F X.thread) fun _ => true).reply σ c
      else (X.quietly F verdict).reply σ c }

/-- The recorder answers as it would on a thread that is alone. -/
theorem notedly_reply {σ : Moment ε κ} {k : Record} {n : Told} {o : Outcome} {l : List (Call κ)}
    (hk : R.Keeps D k σ.world)
    (h : Answers (Walk.body F X.thread) σ.world (n.call R.observer) o w' l) :
    (X.notedly F D R verdict).reply σ (n.call R.observer) = (o, w') := by
  have hex : ∃ (m : Told) (k : Record), (n.call R.observer : Call κ) = m.call R.observer ∧
      R.Keeps D k σ.world := ⟨n, k, rfl, hk⟩
  simp only [notedly, if_pos hex]
  exact Surroundings.reply_without h

/-- Either a recorder has taken a note and nothing else has happened, or the answer is as if nobody
took notes. -/
theorem notedly_cases (X : Cast) (F : Foreign ε κ) (D : Ref .list → Prop) (R : Recorder)
    (verdict : List (Occasion κ) → Option Failure) (σ : Moment ε κ) (c : Call κ) :
    (∃ (n : Told) (w' : World ε), c = n.call R.observer ∧ Peaceful X D σ.world w' ∧
      (X.notedly F D R verdict).reply σ c = (.ok .none, w')) ∨
    (X.notedly F D R verdict).reply σ c = (X.quietly F verdict).reply σ c := by
  by_cases hc : ∃ (n : Told) (k : Record), c = n.call R.observer ∧ R.Keeps D k σ.world
  · obtain ⟨n, k, rfl, hk⟩ := hc
    obtain ⟨o, w', l, hanswers, rfl, -, hbeside, -⟩ := hk.told F X.thread n
    exact .inl ⟨n, w', rfl, hk.peaceful hbeside, notedly_reply hk hanswers⟩
  · exact .inr (if_neg hc)

/-- **There are such surroundings**, however others end. -/
theorem noted_notedly (X : Cast) (F : Foreign ε κ) (D : Ref .list → Prop) (R : Recorder)
    (hsilent : ∀ L n, verdict (L ++ [.told R.observer n]) = none) :
    X.Noted F D R verdict (X.notedly F D R verdict) where
  body _ := rfl
  move σ := .refl X D σ.world
  reply σ c := by
    rcases notedly_cases X F D R verdict σ c with ⟨n, w', -, hw, hreply⟩ | hreply
    · rw [hreply]
      exact hw
    · rw [hreply]
      exact (X.attended_quietly F D verdict).reply σ c
  verdict σ c x hx := by
    rcases notedly_cases X F D R verdict σ c with ⟨n, w', rfl, -, hreply⟩ | hreply
    · rw [hreply, told_of_call hx, hsilent]
      rfl
    · rw [hreply]
      exact (X.attended_quietly F D verdict).verdict σ c x hx
  rests σ := .refl R σ.world
  notes _ _ _ _ _ _ := notedly_reply
  others σ c hc := by
    rcases notedly_cases X F D R verdict σ c with ⟨n, w', rfl, -⟩ | hreply
    · exact absurd rfl (hc n)
    · rw [hreply]
      exact .refl R σ.world

/-! ## A walk while notes are taken -/

/-- What holds throughout a walk: all that the recorder has been told is a part of its history. -/
def chronicle (F : Foreign ε κ) (R : Recorder) (w₀ : World ε) (cs : List Cue) (w : World ε)
    (L : List (Occasion κ)) : Prop :=
  R.Hears F w₀ (cs ++ (toldTo R.observer (Occasion.callbacks L)).map .told) w

/-- Others are told or asked something in the middle of a walk. -/
theorem Noted.left (hS : X.Noted F D R verdict S) (hk : R.Keeps D .blank w₀) {pins : List Pin}
    {h : Hold} {L : List (Occasion κ)} {σ : Moment ε κ}
    (hg : (X.attended D A (chronicle F R w₀ cs) verdict).Going pins h L σ) {c : Call κ}
    {x : Occasion κ} (hx : X.occasion? c = some x) :
    S.Yields (.free ε κ) σ (Routine.invoke c) fun r σ' =>
      (X.attended D A (chronicle F R w₀ cs) verdict).Going pins h (L ++ [x]) σ' ∧
        failure? r = verdict ((L ++ [x]).filter Occasion.isCall) := by
  refine hS.answered hg hx ?_
  have hpast : R.Hears F w₀ (cs ++ (toldTo R.observer (Occasion.callbacks L)).map .told) σ.world :=
    hg.inv
  have hsplit : toldTo R.observer (Occasion.callbacks (L ++ [x])) =
      toldTo R.observer (Occasion.callbacks L) ++ toldTo R.observer x.callback?.toList := by
    rw [Occasion.callbacks_append, Audience.toldTo_append_list]
    cases x <;> rfl
  by_cases hR : ∃ n, x = .told R.observer n
  · obtain ⟨n, rfl⟩ := hR
    obtain ⟨rfl, -⟩ := call_of_told hx
    obtain ⟨o, w', l, hanswers, -, -⟩ := (hpast.keeps hk).told F X.thread n
    have hnow : toldTo R.observer (Occasion.told (κ := κ) R.observer n).callback?.toList = [n] := by
      simp [Occasion.callback?, toldTo]
    rw [hS.notes σ _ n o w' l (hpast.keeps hk) hanswers, chronicle, hsplit, hnow, List.map_append,
      ← List.append_assoc]
    exact hpast.called (c := .told n) hanswers
  · have hne : ∀ n, x ≠ .told R.observer n := fun n hn => hR ⟨n, hn⟩
    have hothers : ∀ n : Told, c ≠ n.call R.observer := by
      rintro n rfl
      exact hne n (told_of_call hx)
    rw [chronicle, hsplit, toldTo_callback hne, List.append_nil]
    exact hpast.meanwhile (hS.others σ c hothers)

/-- A walk can go on while notes are taken. -/
theorem Noted.hosts (hS : X.Noted F D R verdict S) (hk : R.Keeps D .blank w₀)
    (hcoded : A.Coded F X.thread (.walker X.walker)) :
    (X.attended D A (chronicle F R w₀ cs) verdict).Hosts F S where
  body c hc := by
    rw [hS.body c, occasion?_of_isOwn (X := X) hc]
    rfl
  own _ _ _ := trivial
  move _ _ σ _ hw hi := ⟨(hS.move σ).scene hw, hi.meanwhile (hS.rests σ)⟩
  coded := hcoded
  onward _ _ _ hw hi := hi.meanwhile (.of_mild hw.toMild)
  guards _ _ _ w L v hw hv hi := by
    obtain ⟨b, w', hrun, hstill, -⟩ := World.install_run F.obstruct hv.1 hw.assembled.guardOpen
    rw [hrun]
    show chronicle F R w₀ cs w' (L ++ [.guarded v])
    rw [chronicle, Occasion.callbacks_guarded]
    exact hi.meanwhile (.of_mild hstill.toMild)
  hears _ _ _ _ _ _ n ho _ hg := hS.left hk hg (occasion?_call ho n)
  answers _ _ _ _ _ _ hg := hS.left hk hg rfl

/-- **A walk while notes are taken** comes to an end and takes its course, and another one can set
out. What the recorder has been told is a part of its history. -/
theorem Noted.walk (hS : X.Noted F D R verdict S) (h : X.SetsOut F D e args A w)
    (hk : R.Keeps D .blank w₀) (hpast : R.Hears F w₀ cs w) :
    ∃ r σ, S.Runs (Walk.send (.walker X.walker) (.entry e) args) (.start w) r σ ∧
      X.SetsOut F D e args A σ.world ∧
      R.Hears F w₀ (cs ++ (toldTo R.observer (X.heard σ.calls)).map .told) σ.world ∧
      X.occasions σ.calls = (X.course A verdict).1 ∧ failure? r = (X.course A verdict).2 := by
  have hZ : (X.attended D A (chronicle F R w₀ cs) verdict).Hosts F S := hS.hosts hk h.coded
  obtain ⟨source, inner, hwhole⟩ := h.whole
  have hbegun : chronicle F R w₀ cs w ([] : List (Occasion κ)) := by
    rw [chronicle]
    exact (List.append_nil cs).symm ▸ hpast
  obtain ⟨r, σ, hruns, -, hg, hr⟩ := hZ.walk (fun _ _ _ hw hi => hi.meanwhile (.of_mild hw.toMild))
    h.announces hwhole (h.going hbegun)
  have hheard : X.heard σ.calls = Occasion.callbacks
      ((X.attended D A (chronicle F R w₀ cs) verdict).outcome []).1 := by
    rw [← callbacks_occasions, show X.occasions σ.calls = _ from hg.heard,
      Occasion.callbacks_filter]
  refine ⟨r, σ, hruns,
    { h with assembled := hg.scene.assembled, idle := hg.scene.held, fits := hg.scene.fits },
    ?_, ?_, ?_⟩
  · rw [hheard]
    exact hg.inv
  · rw [course_eq D (chronicle F R w₀ cs)]
    exact hg.heard
  · rw [course_eq D (chronicle F R w₀ cs)]
    exact hr

/-- What observers are told in a walk that does not fail. -/
theorem callbacks_of_complete (h : (X.course A verdict).2 = none) :
    Occasion.callbacks (X.course A verdict).1 = X.announced A.notices := by
  have hcourse : (X.course A verdict).1 = ((X.steps A verdict).1).filter Occasion.isCall := rfl
  rw [hcourse, steps_of_complete h, Occasion.callbacks_filter, Agenda.callbacks_occasions]

end Cast

/-! ## Complete walks -/

/-- An observer is told of each notice as often as it is an observer. -/
theorem Audience.toldTo_announced (X : Cast) (o : Ref .observer) (ns : List Notice) :
    toldTo o (X.announced ns) =
      (ns.flatMap (List.replicate (X.observers.count o))).map Notice.told := by
  induction ns with
  | nil => rfl
  | cons n rest ih =>
    rw [Cast.announced, List.flatMap_cons, toldTo_append_list, toldTo_toAll,
      show List.flatMap _ rest = X.announced rest from rfl, ih, List.flatMap_cons, List.map_append,
      List.map_replicate]

namespace Balanced

variable {ns inner : List Notice}

theorem nested (h : Balanced inner) (e : Event) (args : List Value) (m : Nat) :
    Balanced (List.replicate m (.before e args) ++ inner ++ List.replicate m (.after e)) := by
  induction m with
  | zero => simpa using h
  | succ m ih =>
    rw [List.replicate_succ, List.replicate_succ']
    simpa [GuardedWalk.around] using Balanced.around e args ih .nil

/-- What is balanced is so if each notice is given several times. -/
theorem repeated (h : Balanced ns) (m : Nat) : Balanced (ns.flatMap (List.replicate m)) := by
  induction h with
  | nil => exact .nil
  | around e args _ _ ih ih' =>
    have hnested := (ih.nested e args m).append ih'
    simpa [GuardedWalk.around] using hnested

end Balanced

namespace Recorder

/-- A complete walk through an agenda in the words of a recorder: each notice is there as often as
the recorder is an observer. -/
def fullNames (R : Recorder) (X : Cast) (A : Agenda κ) : List String :=
  (A.notices.flatMap (List.replicate (X.observers.count R.observer))).map Notice.name

/-- **What is noted in a complete walk** comes after all that has been noted before, and what was
open before is still open. -/
theorem record_complete (X : Cast) (A : Agenda κ) (R : Recorder) (ts : List Told) :
    let k := Told.record (ts ++ toldTo R.observer (X.announced A.notices))
    k.notes.map Note.name = (Told.record ts).notes.map Note.name ++ R.fullNames X A ∧
      k.opened = (Told.record ts).opened := by
  have hbalanced := A.notices_balanced.repeated (X.observers.count R.observer)
  simp only [Told.record, List.foldl_append, Audience.toldTo_announced, hbalanced.record,
    List.map_append, List.map_map, fullNames, and_true]
  exact congrArg _ (List.map_congr_left fun n _ => n.name_note)

/-- However others end, and whatever they do meanwhile, a walk with a recorder comes to an end at
which something holds, and another one can set out. -/
def Follows (R : Recorder) (F : Foreign ε κ) (D : Ref .list → Prop) (X : Cast) (A : Agenda κ)
    (w : World ε) (Q : Outcome → Moment ε κ → Prop) : Prop :=
  ∀ e args verdict S, X.SetsOut F D e args A w → X.Noted F D R verdict S →
    ∃ r σ, S.Runs (Walk.send (.walker X.walker) (.entry e) args) (.start w) r σ ∧
      X.SetsOut F D e args A σ.world ∧ Q r σ

/-- **A walk is a part of the history of a recorder**, whether or not it is cut short. After a
complete walk the recorder answers with what it would have answered before, and then with all the
words of the walk. -/
theorem Hears.follows (hk : R.Keeps D .blank w₀) (hpast : R.Hears F w₀ cs w) (X : Cast)
    (A : Agenda κ) :
    R.Follows F D X A w fun r σ =>
      R.Hears F w₀ (cs ++ (toldTo R.observer (X.heard σ.calls)).map .told) σ.world ∧
      (failure? r = none → ∃ earlier : List String,
        R.Returns F w .names [] (fun _ vs => vs = earlier.map .text) ∧
        R.Returns F σ.world .names [] fun _ vs =>
          vs = (earlier ++ R.fullNames X A).map .text) := by
  intro e args verdict S h hS
  obtain ⟨r, σ, hruns, hagain, hnow, hheard, hr⟩ := hS.walk h hk hpast
  refine ⟨r, σ, hruns, hagain, hnow, fun hcomplete => ?_⟩
  have htold : X.heard σ.calls = X.announced A.notices := by
    rw [← Cast.callbacks_occasions, hheard]
    exact Cast.callbacks_of_complete (hr.symm.trans hcomplete)
  have hnames : ∀ {cs w}, R.Hears F w₀ cs w → (∀ e : Event,
      (w.carried (.event e)).get? "_value_" = some (.text e.methodName)) →
      R.Returns F w .names [] fun _ vs =>
        vs = ((Told.record (Cue.since cs)).notes.map Note.name).map .text := by
    intro cs w hpast hevents
    rw [List.map_map]
    exact (hpast.keeps hk).names (fun _ => Told.regular) hevents
  refine ⟨_, hnames hpast h.assembled.events, ?_⟩
  have hlater := hnames hnow hagain.assembled.events
  rw [htold, Cue.since_append_told, (record_complete X A R (Cue.since cs)).1] at hlater
  exact hlater

end Recorder

end GuardedWalk
