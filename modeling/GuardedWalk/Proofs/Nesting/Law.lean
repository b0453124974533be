import GuardedWalk.Proofs.Nesting.Walks

/-!
# A recorder reconstructs nesting

Whatever a recorder is called for, in whatever order, its notes say which event each end belongs to,
as brackets match, and they say so where an end belongs to nothing. So its notes can be read
whatever has become of earlier walks: a walk that was cut short leaves events open, but what is
noted in a complete walk after it is complete.

## Main definitions

* `GuardedWalk.Interruption.verdict` — an observer fails in a walk of the small document.

## Main results

* `GuardedWalk.Recorder.reconstructs_nesting` — what a recorder says at any moment of its history.
-/

set_option autoImplicit false

namespace GuardedWalk

open Audience (toldTo)
open Surroundings (Answers)

variable {ε κ : Type} {F : Foreign ε κ} {D : Ref .list → Prop} {R : Recorder} {w w₀ : World ε}
  {cs : List Cue}

namespace Recorder

/-- **A recorder reconstructs how events are nested.** A recorder that has noted nothing is called
for anything, any number of times and on any threads, and meanwhile others leave it alone. It can
still be called for anything. It has made a note of each thing that it has been told since it was
last made to forget, in order. The note of an end says which event has begun where the end belongs;
it says none exactly if the end belongs to no beginning. The depth is the number of beginnings to
which no end belongs. It answers in order which events have begun, and with which arguments an event
has begun. And if a walk goes on now, whether or not it is cut short, and later another one that is
not, then the last words that the recorder answers with are all the words of the latter. -/
theorem reconstructs_nesting (hk : R.Keeps D .blank w₀) (hpast : R.Hears F w₀ cs w) :
    let ts : List Told := Cue.since cs
    (∀ t c, ∃ w' l, Answers (Walk.body F t) w (c.call R.observer) (.ok .none) w' l ∧
      R.Hears F w₀ (cs ++ [c]) w') ∧
    (∃ notes : List Note,
      w.member (.observer R.observer) Observer.notesField = .ok (.value (.list R.notes)) ∧
      (w.items R.notes).map w.note? = notes.map some ∧ notes.length = ts.length ∧
      (∀ (i : Nat) e args, ts[i]? = some (.before e args) →
        notes[i]? = some ⟨Recording.beforeWord, .event e, some args⟩) ∧
      ∀ j : Nat, ts[j]? = some .after → ∃ v, notes[j]? = some ⟨Recording.afterWord, v, none⟩ ∧
        (∀ e : Event, v = .event e ↔
          ∃ i args, Told.Pairs ts i j ∧ ts[i]? = some (.before e args)) ∧
        (v = .none ↔ ∀ i, ¬ Told.Pairs ts i j)) ∧
    w.member (.observer R.observer) "depth" =
      .ok (.value (.int {i | Told.Unended ts i}.ncard)) ∧
    R.Returns F w .beforeEvents [] (fun _ vs =>
      vs = (ts.filterMap Told.opening?).map fun b => .event b.1) ∧
    (∀ e, R.Returns F w .argsFor [.event e] fun w' vs => ∃ rows : List (Ref .tuple),
      vs = rows.map .tuple ∧
      rows.map w'.row = ((ts.filterMap Told.opening?).filter (·.1 = e)).map Prod.snd) ∧
    ∀ X A, R.Follows F D X A w fun _ σ₁ =>
      R.Hears F w₀ (cs ++ (toldTo R.observer (X.heard σ₁.calls)).map .told) σ₁.world ∧
      ∀ w₂, R.Rests σ₁.world w₂ → ∀ X' A', R.Follows F D X' A' w₂ fun r₂ σ₂ =>
        failure? r₂ = none → ∃ earlier : List String,
          R.Returns F w₂ .names [] (fun _ vs => vs = earlier.map .text) ∧
          R.Returns F σ₂.world .names [] fun _ vs =>
            vs = (earlier ++ R.fullNames X' A').map .text := by
  intro ts
  have hkeeps : R.Keeps D (Told.record ts) w := hpast.keeps hk
  have hregular : ∀ n ∈ (Told.record ts).notes, n.Regular := fun _ => Told.regular
  refine ⟨fun t c => ?_, ?notes, ?depth, ?begun, fun e => ?args, fun X A => ?_⟩
  case notes =>
    exact ⟨_, World.member_of_carried rfl hkeeps.notesField, hkeeps.read.2, Told.length_notes ts,
      fun i e args hi => Told.notes_getElem? hi, fun j hj => Told.event_of_end hj⟩
  case depth => rw [Told.ncard_unended, hkeeps.depth]
  case begun =>
    have hbegun := hkeeps.beforeEvents (F := F) hregular
    rw [Told.filterMap_opening, List.map_map] at hbegun
    exact hbegun
  case args =>
    have hargs := hkeeps.argsFor (F := F) hregular e
    rw [Told.filterMap_opening, List.filter_map, List.map_map] at hargs
    simpa [Function.comp_def] using hargs
  · obtain ⟨w', l, hanswers, -, -⟩ := hkeeps.cued F t c
    exact ⟨w', l, hanswers, hpast.called hanswers⟩
  · intro e args verdict S h hS
    obtain ⟨r₁, σ₁, hruns, hagain, hnow, -⟩ := hpast.follows hk X A e args verdict S h hS
    refine ⟨r₁, σ₁, hruns, hagain, hnow, fun w₂ hrests X' A' e' args' verdict' S' h' hS' => ?_⟩
    obtain ⟨r₂, σ₂, hruns', hagain', -, hnames⟩ :=
      (hnow.meanwhile hrests).follows hk X' A' e' args' verdict' S' h' hS'
    exact ⟨r₂, σ₂, hruns', hagain', hnames⟩

end Recorder

/-! ## A small document -/

namespace Interruption

/-- The observer that is no recorder fails when it is told that the name of the feature begins. -/
def verdict (L : List (Occasion Empty)) : Option Failure :=
  if (Occasion.callbacks L).getLast? = some (⟨1⟩, .before .featureName [.text "Login"]) then
    some .numberTooLarge
  else none

/-- What the small document has the observers told. -/
def agenda : Agenda Empty := Document.login.entered .features

theorem setsOut : Pair.cast.SetsOut Pair.code Pair.audience.lists .features [Document.login.value]
    agenda Pair.world :=
  .of_document Pair.fits Pair.assembled Pair.held rfl

theorem noted : Pair.cast.Noted Pair.code Pair.audience.lists Pair.recorder verdict
    (Pair.cast.notedly Pair.code Pair.audience.lists Pair.recorder verdict) := by
  refine Cast.noted_notedly _ _ _ _ fun L n => ?_
  rw [verdict, Occasion.callbacks_told, List.getLast?_concat, if_neg (by simp [Pair.recorder])]

end Interruption

open Interruption in
/-- A walk of the small document is cut short when the tags have ended, and the feature has not.
Then the document is walked through again, up to the end. -/
theorem Recorder.reconstructs_interrupted_walk :
    ∃ (r₁ r₂ : Outcome) (σ₁ σ₂ : Moment (List Callback) Empty) (earlier : List String),
      (Pair.cast.notedly Pair.code Pair.audience.lists Pair.recorder verdict).Runs
        (Walk.send (.walker Pair.cast.walker) (.entry .features) [Document.login.value])
        (.start Pair.world) r₁ σ₁ ∧
      failure? r₁ = some .numberTooLarge ∧
      σ₁.world.member (.observer Pair.recorder.observer) "depth" = .ok (.value (.int 2)) ∧
      (Pair.cast.notedly Pair.code Pair.audience.lists Pair.recorder fun _ => none).Runs
        (Walk.send (.walker Pair.cast.walker) (.entry .features) [Document.login.value])
        (.start σ₁.world) r₂ σ₂ ∧
      failure? r₂ = none ∧
      Pair.recorder.Returns Pair.code σ₁.world .names [] (fun _ vs => vs = earlier.map .text) ∧
      Pair.recorder.Returns Pair.code σ₂.world .names [] fun _ vs =>
        vs = (earlier ++ agenda.notices.map Notice.name).map .text := by
  have hblank : Pair.recorder.Keeps Pair.audience.lists .blank Pair.world :=
    Pair.listens.notes Pair.recorder List.mem_cons_self
  obtain ⟨-, -, -, -, -, hfollows⟩ := reconstructs_nesting (F := Pair.code) hblank .start
  obtain ⟨r₁, σ₁, hruns₁, hagain, hhears, hnext⟩ :=
    hfollows Pair.cast agenda _ _ _ _ setsOut noted
  have hquiet : Pair.cast.Noted Pair.code Pair.audience.lists Pair.recorder (fun _ => none)
      (Pair.cast.notedly Pair.code Pair.audience.lists Pair.recorder fun _ => none) :=
    Cast.noted_notedly _ _ _ _ fun _ _ => rfl
  obtain ⟨r₂, σ₂, hruns₂, -, hnames⟩ :=
    hnext σ₁.world (.refl _ _) Pair.cast agenda _ _ _ _ hagain hquiet
  obtain ⟨r, σ, hruns, hheard, hend₁⟩ := setsOut.walk noted.toAttended
  obtain ⟨rfl, rfl⟩ := hruns₁.unique hruns
  obtain ⟨r, σ, hruns, -, hend₂⟩ := hagain.walk hquiet.toAttended
  obtain ⟨rfl, rfl⟩ := hruns₂.unique hruns
  obtain ⟨earlier, hearlier, hlater⟩ := hnames (hend₂.trans (by decide))
  refine ⟨r₁, r₂, σ₁, σ₂, earlier, hruns₁, hend₁.trans (by decide), ?_, hruns₂,
    hend₂.trans (by decide), hearlier, hlater⟩
  obtain ⟨-, -, hdepth, -⟩ := reconstructs_nesting hblank hhears
  rw [Told.ncard_unended, ← Cast.callbacks_occasions, hheard] at hdepth
  exact hdepth

end GuardedWalk
