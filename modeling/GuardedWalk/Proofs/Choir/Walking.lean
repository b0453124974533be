import GuardedWalk.Proofs.Choir.Role
import GuardedWalk.Proofs.Run.Filling

/-!
# A walk that stops at each callback

A walk goes on by itself from one occasion to the next. On each occasion it stops, and much may
happen before it goes on: others leave alone what it relies on, and a recorder may be told
something, be it by the walk or by others. What is still to come is known all the same.

That is found out from walks in surroundings that answer each occasion at once. What has happened so
far says nothing about how others answer later on, so all answers that they may give from now on are
looked at together.

## Main definitions

* `GuardedWalk.Cast.walking` — the role of a walk.
* `GuardedWalk.Recorder.heardAt` — what a recorder has noted up to some occasion.
* `GuardedWalk.Cast.Accompanied` — surroundings in which a recorder is told something on each
  occasion.
* `GuardedWalk.Cast.Prospect` — what is known of a walk that is in the middle of something.

## Main results

* `GuardedWalk.Cast.Prospect.advance` — as much is known after a further step.
* `GuardedWalk.Cast.Prospect.answered` — as much is known after others have heard of something.
* `GuardedWalk.Cast.SetsOut.awaits` — what is still to come at the beginning of a walk.
-/

set_option autoImplicit false

namespace GuardedWalk

open World (Peaceful)

variable {ε κ : Type} {X : Cast} {F : Foreign ε κ} {D : Ref .list → Prop} {A : Agenda κ}
  {R : Recorder} {k k₀ : Record} {w w' : World ε} {S : Surroundings ε κ} {τ τ' : Nat → List Told}

/-- The role of a walk through an agenda. -/
def Cast.walking (X : Cast) (D : Ref .list → Prop) (A : Agenda κ) : Role ε D where
  thread := X.thread
  bears := Peaceful X D
  does _ _ := True
  tells := Occasion.callbacks (X.course A fun _ => none).1
  ends o := failure? o = (X.course A fun _ => none).2
  bears_beside h := h.peaceful (fun _ hl => hl) X
  bears_trans h h' := h.trans h'
  does_refl _ := trivial
  does_trans _ _ := trivial

namespace Recorder

/-- What a recorder has noted up to some occasion, that is told some things on each of them. -/
def heardAt (k : Record) (τ : Nat → List Told) : Nat → Record
  | 0 => k
  | n + 1 => (τ n).foldl Record.hear (heardAt k τ n)

theorem heardAt_congr {n : Nat} (h : ∀ m < n, τ' m = τ m) : heardAt k τ' n = heardAt k τ n := by
  induction n with
  | zero => rfl
  | succ n ih =>
    rw [heardAt, heardAt, ih fun m hm => h m (Nat.lt_succ_of_lt hm), h n (Nat.lt_succ_self n)]

/-- A recorder can be told anything. -/
theorem Keeps.told (F : Foreign ε κ) (t : Thread) (hk : R.Keeps D k w) (n : Told) :
    ∃ o w' l, Surroundings.Answers (Walk.body F t) w (n.call R.observer) o w' l ∧ o = .ok .none ∧
      R.Keeps D (k.hear n) w' ∧ World.Beside (fun l => l ≠ R.notes ∧ l ≠ R.opened) w w' ∧
      w'.tokens = w.tokens := by
  have hopen : ((Moment.start w).calling (n.call R.observer : Call κ)).window = .open := by
    cases n <;> rfl
  have hyields := told_yields (F := F) (t := t) (ρ := .free ε κ) (fun _ _ _ _ _ => trivial)
    (σ := (Moment.start w).calling (n.call R.observer)) hk hopen n
    (Q := fun o σ' => o = .ok .none ∧
      R.Jots D (k.hear n) ((Moment.start w).calling (n.call R.observer)) σ')
    fun σ' hj => ⟨rfl, hj⟩
  obtain ⟨o, σ', l, hanswers, -, ho, hj⟩ := Surroundings.Answers.of_yields hyields
  obtain ⟨ls, ts, hw, -, -⟩ := hj.world
  exact ⟨o, σ'.world, l, hanswers, ho, hj.keeps, hj.beside, by rw [hw]; rfl⟩

/-- What a recorder is told is beside a walk. -/
theorem Keeps.peaceful (hk : R.Keeps D k w)
    (h : World.Beside (fun l => l ≠ R.notes ∧ l ≠ R.opened) w w') : Peaceful X D w w' :=
  h.peaceful (fun _ hl => hk.ne_of_mem hl) X

/-- A recorder can be told any number of things, one after the other. -/
theorem Keeps.told_all (F : Foreign ε κ) (X : Cast) (hk : R.Keeps D k w) (ts : List Told) :
    ∃ w', Peaceful X D w w' ∧ R.Keeps D (ts.foldl Record.hear k) w' := by
  induction ts generalizing k w with
  | nil => exact ⟨w, .refl X D w, hk⟩
  | cons n rest ih =>
    obtain ⟨o, w₁, l, -, -, hk₁, hbeside, -⟩ := hk.told F X.thread n
    obtain ⟨w', hw', hk'⟩ := ih hk₁
    exact ⟨w', (hk.peaceful hbeside).trans hw', hk'⟩

end Recorder

open Recorder (heardAt)

namespace Cast

/-! ## Walks that a recorder attends to -/

/-- Surroundings in which nothing happens but on the occasions of a walk: others answer them, leave
alone what the walk relies on, and a recorder is told something. -/
structure Accompanied (X : Cast) (F : Foreign ε κ) (D : Ref .list → Prop) (R : Recorder)
    (k : Record) (τ : Nat → List Told) (S : Surroundings ε κ) : Prop where
  body : ∀ c, S.body c =
    if (X.occasion? c).isSome then none else some (Walk.body F X.thread c)
  move : S.move = Moment.world
  reply : ∀ σ c, Peaceful X D σ.world (S.reply σ c).2
  succeeds : ∀ σ c, failure? (S.reply σ c).1 = none
  notes : ∀ σ c, R.Keeps D (heardAt k τ (X.occasions σ.calls).length) σ.world →
    R.Keeps D (heardAt k τ ((X.occasions σ.calls).length + 1)) (S.reply σ c).2

/-- What is no occasion is done as it is on a thread that is alone. -/
theorem Accompanied.body_eq_some (hS : X.Accompanied F D R k τ S) {c : Call κ}
    {p : Program ε (Call κ) Outcome} :
    S.body c = some p ↔ X.occasion? c = none ∧ Walk.body F X.thread c = p := by
  rw [hS.body]
  cases X.occasion? c <;> simp

theorem Accompanied.body_eq_none (hS : X.Accompanied F D R k τ S) {c : Call κ} :
    S.body c = none ↔ ∃ x, X.occasion? c = some x := by
  rw [hS.body]
  cases X.occasion? c <;> simp

/-- On each occasion the walker is put together as it was made, and the recorder has noted what it
has been told. -/
def attentive (X : Cast) (D : Ref .list → Prop) (R : Recorder) (k : Record)
    (τ : Nat → List Told) : Surroundings.Rule ε κ := fun c σ =>
  (X.occasion? c).isSome → X.Assembled σ.world ∧
    R.Keeps D (heardAt k τ (X.occasions σ.calls).length) σ.world

/-- The setting of a walk in such surroundings. -/
def accompanied (X : Cast) (D : Ref .list → Prop) (A : Agenda κ) (R : Recorder) (k : Record)
    (τ : Nat → List Told) : Setting ε κ where
  cast := X
  strict := false
  lists := D
  root := A
  inv w L := R.Keeps D (heardAt k τ (L.filter Occasion.isCall).length) w
  verdict _ := none
  rule := X.attentive D R k τ

/-- Others answer on an occasion. -/
theorem Accompanied.left (hS : X.Accompanied F D R k τ S) {pins : List Pin} {h : Hold}
    {L : List (Occasion κ)} {σ : Moment ε κ}
    (hg : (X.accompanied D A R k τ).Going pins h L σ) {c : Call κ} {x : Occasion κ}
    (hx : X.occasion? c = some x) :
    S.Yields (X.attentive D R k τ) σ (Routine.invoke c) fun r σ' =>
      (X.accompanied D A R k τ).Going pins h (L ++ [x]) σ' ∧ failure? r = none := by
  have hheard : X.occasions σ.calls = L.filter Occasion.isCall := hg.heard
  have hbody : S.body c = none := hS.body_eq_none.2 ⟨x, hx⟩
  have hkept : R.Keeps D (heardAt k τ (X.occasions σ.calls).length) σ.world := by
    rw [hheard]
    exact hg.inv
  refine hg.left hx hbody (fun _ => ⟨hg.scene.assembled, hkept⟩) ((hS.reply σ c).scene hg.scene) ?_
    (hS.succeeds σ c)
  have hlength : ((L ++ [x]).filter Occasion.isCall).length = (X.occasions σ.calls).length + 1 := by
    simp [hheard, isCall_of_occasion? hx]
  show R.Keeps D (heardAt k τ ((L ++ [x]).filter Occasion.isCall).length) _
  rw [hlength]
  exact hS.notes σ c hkept

/-- A walk can go on in such surroundings. -/
theorem Accompanied.hosts (hS : X.Accompanied F D R k τ S)
    (hcoded : A.Coded F X.thread (.walker X.walker)) :
    (X.accompanied D A R k τ).Hosts F S where
  body c hc := hS.body_eq_some.2 ⟨occasion?_of_isOwn (X := X) hc, rfl⟩
  own c σ hc hsome := by
    rw [occasion?_of_isOwn (X := X) hc] at hsome
    cases hsome
  move pins h σ L hw hi := by
    rw [hS.move]
    exact ⟨hw, hi⟩
  coded := hcoded
  onward w w' L hf hi := Recorder.Keeps.mild hi hf.toMild
  guards _ _ _ w L v hw hv hi := by
    obtain ⟨b, w', hrun, hstill, -⟩ := World.install_run F.obstruct hv.1 hw.assembled.guardOpen
    rw [hrun]
    show R.Keeps D (heardAt k τ ((L ++ [Occasion.guarded v]).filter Occasion.isCall).length) w'
    have hsame : (L ++ [Occasion.guarded v]).filter Occasion.isCall = L.filter Occasion.isCall := by
      simp [Occasion.isCall, Occasion.call?]
    rw [hsame]
    exact Recorder.Keeps.mild hi hstill.toMild
  hears _ _ _ _ _ _ n ho _ hg := hS.left hg (occasion?_call ho n)
  answers _ _ _ _ _ _ hg := hS.left hg rfl

theorem Accompanied.before (hS : X.Accompanied F D R k τ S) (σ : Moment ε κ) :
    S.before σ = σ.world := by
  simp [Surroundings.before, hS.move]

/-- There are such surroundings, whatever the recorder is to be told. -/
theorem exists_accompanied (X : Cast) (F : Foreign ε κ) (D : Ref .list → Prop) (R : Recorder)
    (k : Record) (τ : Nat → List Told) : ∃ S, X.Accompanied F D R k τ S := by
  have hex : ∀ σ : Moment ε κ, ∃ w', Peaceful X D σ.world w' ∧
      (R.Keeps D (heardAt k τ (X.occasions σ.calls).length) σ.world →
        R.Keeps D (heardAt k τ ((X.occasions σ.calls).length + 1)) w') := by
    intro σ
    by_cases hk : R.Keeps D (heardAt k τ (X.occasions σ.calls).length) σ.world
    · obtain ⟨w', hw', hk'⟩ := hk.told_all F X (τ (X.occasions σ.calls).length)
      exact ⟨w', hw', fun _ => hk'⟩
    · exact ⟨σ.world, .refl X D _, fun h => absurd h hk⟩
  refine ⟨⟨fun c => if (X.occasion? c).isSome then none else some (Walk.body F X.thread c),
    Moment.world, fun σ _ => (.ok .none, (hex σ).choose)⟩, ⟨fun _ => rfl, rfl, ?_, ?_, ?_⟩⟩
  · exact fun σ _ => (hex σ).choose_spec.1
  · exact fun _ _ => rfl
  · exact fun σ _ => (hex σ).choose_spec.2

/-! ## What is still to come -/

/-- How a walk ends: it has told all that it has to tell. -/
structure Concludes (X : Cast) (D : Ref .list → Prop) (A : Agenda κ) (R : Recorder) (k : Record)
    (w : World ε) (L : List (Occasion κ)) (r : Outcome) : Prop where
  occasions : L = (X.course A fun _ => none).1
  outcome : failure? r = (X.course A fun _ => none).2
  stands : X.Stands D R k w

/-- What is known of a walk that is in the middle of something, after some occasions: however others
answer from now on, it comes to its end, and what holds on each occasion is known. -/
def Prospect (X : Cast) (F : Foreign ε κ) (D : Ref .list → Prop) (A : Agenda κ) (R : Recorder)
    (v : Voice ε κ) (w : World ε) (k : Record) (L : List (Occasion κ)) : Prop :=
  ∃ σ k₀ τ₀, σ.world = w ∧ X.occasions σ.calls = L ∧ heardAt k₀ τ₀ L.length = k ∧
    ∀ S τ, X.Accompanied F D R k₀ τ S → (∀ n < L.length, τ n = τ₀ n) →
      ∃ r σ', S.Goes (X.attentive D R k₀ τ) v σ r σ' ∧
        X.Concludes D A R (heardAt k₀ τ (X.occasions σ'.calls).length) σ'.world
          (X.occasions σ'.calls) r

variable {v v' : Voice ε κ} {L : List (Occasion κ)}

/-- What is known of a walk at its beginning. -/
theorem SetsOut.prospect {e : Event} {args : List Value} (h : X.SetsOut F D e args A w)
    (hk : R.Keeps D k w) :
    X.Prospect F D A R ⟨Walk.send (.walker X.walker) (.entry e) args, []⟩ w k [] := by
  refine ⟨.start w, k, fun _ => [], rfl, rfl, rfl, fun S τ hS _ => ?_⟩
  have hZ := hS.hosts (A := A) h.coded
  obtain ⟨source, inner, hwhole⟩ := h.whole
  have hlasts : (X.accompanied D A R k τ : Setting ε κ).Lasts :=
    fun _ _ _ hf hi => Recorder.Keeps.mild hi hf.toMild
  have hgoing : (X.accompanied D A R k τ).Going [] .idle [] (.start w) :=
    going_start ⟨h.assembled, h.idle, by simp, h.fits⟩ hk
  obtain ⟨r, σ', hgoes, hg, hr⟩ := (hZ.walk hlasts h.announces hwhole hgoing).goes
  have houtcome : (X.accompanied D A R k τ : Setting ε κ).outcome [] =
      (X.attended D A (fun (_ : World ε) _ => True) fun _ => none).outcome [] := by
    have htell : ∀ L told, (X.accompanied D A R k τ : Setting ε κ).tell L told =
        (X.attended D A (fun (_ : World ε) _ => True) fun _ => none).tell L told :=
      Setting.tell_congr (Z := X.attended D A (fun _ _ => True) fun _ => none) rfl
    simp only [Setting.outcome, htell]
    rfl
  have hcourse : X.course A (fun _ => none) = (_, _) :=
    course_eq D fun (_ : World ε) (_ : List (Occasion κ)) => True
  have hheard : X.occasions σ'.calls = (X.course A fun _ => none).1 := by
    rw [hcourse, ← houtcome]
    exact hg.heard
  refine ⟨r, σ', hgoes, hheard, ?_, hg.scene.assembled, ?_⟩
  · rw [hcourse, ← houtcome]
    exact hr
  · rw [show X.occasions σ'.calls = _ from hg.heard]
    exact hg.inv

/-- As much is known after a further step. -/
theorem Prospect.advance (h : X.Prospect F D A R v w k L)
    (hv : v.advance X.isOutside (Walk.body F X.thread) w = some (v', w')) :
    X.Prospect F D A R v' w' k L := by
  obtain ⟨σ, k₀, τ₀, rfl, hL, hk, hgoes⟩ := h
  obtain ⟨now, stack⟩ := v
  unfold Voice.advance at hv
  -- whatever the surroundings, the walk takes this very step in them
  split at hv
  · rename_i o next rest hnow hstack
    obtain rfl : now = .done o := hnow
    obtain rfl : stack = next :: rest := hstack
    obtain ⟨rfl, rfl⟩ := Prod.mk.inj (Option.some.inj hv)
    refine ⟨σ.returned, k₀, τ₀, rfl, hL, hk, fun S τ hS hτ => ?_⟩
    obtain ⟨r, σ', hg, hend⟩ := hgoes S τ hS hτ
    cases hg with
    | back hg => exact ⟨r, σ', hg, hend⟩
  · rename_i β change next hnow
    obtain rfl : now = .step change next := hnow
    obtain ⟨rfl, rfl⟩ := Prod.mk.inj (Option.some.inj hv)
    refine ⟨σ.stepped (change σ.world).2, k₀, τ₀, rfl, hL, hk, fun S τ hS hτ => ?_⟩
    obtain ⟨r, σ', hg, hend⟩ := hgoes S τ hS hτ
    cases hg with
    | step hg =>
      rw [hS.before] at hg
      exact ⟨r, σ', hg, hend⟩
  · rename_i c next hnow
    obtain rfl : now = .call c next := hnow
    split at hv
    · cases hv
    · rename_i hown
      obtain ⟨rfl, rfl⟩ := Prod.mk.inj (Option.some.inj hv)
      have hnone : X.occasion? c = none := by simpa [isOutside] using hown
      have hsame : X.occasions (σ.calls ++ [c]) = X.occasions σ.calls := by
        simp [occasions, hnone]
      refine ⟨σ.calling c, k₀, τ₀, rfl, hsame.trans hL, hk, fun S τ hS hτ => ?_⟩
      obtain ⟨r, σ', hg, hend⟩ := hgoes S τ hS hτ
      cases hg with
      | call hc _ hg =>
        obtain ⟨-, rfl⟩ := hS.body_eq_some.1 hc
        exact ⟨r, σ', hg, hend⟩
      | left hc _ _ =>
        obtain ⟨x, hx⟩ := hS.body_eq_none.1 hc
        cases hnone.symm.trans hx
  · cases hv

/-- What is known where a walk is at its end. -/
theorem Prospect.ended {o : Outcome} (h : X.Prospect F D A R ⟨.done o, []⟩ w k L) :
    X.Concludes D A R k w L o := by
  obtain ⟨σ, k₀, τ₀, rfl, rfl, rfl, hgoes⟩ := h
  obtain ⟨S, hS⟩ := X.exists_accompanied F D R k₀ τ₀
  obtain ⟨r, σ', hg, hend⟩ := hgoes S τ₀ hS fun _ _ => rfl
  cases hg with
  | ended => exact hend

section Call

variable {c : Call κ} {x : Occasion κ} {next : Outcome → Program ε (Call κ) Outcome}
  {stack : List (Outcome → Program ε (Call κ) Outcome)}

/-- What is known where others are to hear of something. -/
theorem Prospect.call (h : X.Prospect F D A R ⟨.call c next, stack⟩ w k L)
    (hx : X.occasion? c = some x) :
    X.Stands D R k w ∧ L ++ [x] <+: (X.course A fun _ => none).1 := by
  obtain ⟨σ, k₀, τ₀, rfl, rfl, rfl, hgoes⟩ := h
  obtain ⟨S, hS⟩ := X.exists_accompanied F D R k₀ τ₀
  obtain ⟨r, σ', hg, hend⟩ := hgoes S τ₀ hS fun _ _ => rfl
  cases hg with
  | call hc _ _ => cases hx.symm.trans (hS.body_eq_some.1 hc).1
  | left _ hr hg =>
    obtain ⟨hassembled, hkeeps⟩ := hr (by rw [hx]; rfl)
    obtain ⟨l, hl⟩ := hg.calls
    refine ⟨⟨hassembled, hkeeps⟩, X.occasions l, ?_⟩
    rw [← hend.occasions, ← hl]
    simp [Moment.answered, occasions, hx]

open Classical in
/-- Surroundings in which others answer as in some others, apart from one moment. -/
noncomputable def answering (S : Surroundings ε κ) (σ : Moment ε κ) (o : Outcome) (w : World ε) :
    Surroundings ε κ :=
  { S with reply := fun τ c => if τ = σ then (o, w) else S.reply τ c }

/-- Where others answer as in some surroundings, they may as well answer in another way at one
moment. -/
theorem Accompanied.answering {τ : Nat → List Told} (hS : X.Accompanied F D R k τ S)
    {σ : Moment ε κ} (hw : Peaceful X D σ.world w')
    (hk : R.Keeps D (heardAt k τ ((X.occasions σ.calls).length + 1)) w') (u : Value) :
    X.Accompanied F D R k τ (answering S σ (.ok u) w') := by
  refine ⟨hS.body, hS.move, fun σ₁ c => ?_, fun σ₁ c => ?_, fun σ₁ c hk₁ => ?_⟩ <;>
    by_cases hσ : σ₁ = σ <;> simp only [Cast.answering, hσ, if_true, if_false]
  · exact hw
  · exact hS.reply σ₁ c
  · rfl
  · exact hS.succeeds σ₁ c
  · exact hk
  · exact hS.notes σ₁ c hk₁

/-- A recorder that is told some things on one more occasion. -/
theorem heardAt_further {k₀ : Record} {τ₀ τ : Nat → List Told} {n : Nat} {ts : List Told}
    (hτ : ∀ m < n + 1, τ m = if m < n then τ₀ m else ts) :
    heardAt k₀ τ (n + 1) = ts.foldl Record.hear (heardAt k₀ τ₀ n) := by
  have hbefore : heardAt k₀ τ n = heardAt k₀ τ₀ n :=
    Recorder.heardAt_congr fun m hm => by rw [hτ m (Nat.lt_succ_of_lt hm), if_pos hm]
  rw [heardAt, hbefore, hτ n (Nat.lt_succ_self n), if_neg (Nat.lt_irrefl n)]

/-- As much is known after others have heard of something. -/
theorem Prospect.answered (h : X.Prospect F D A R ⟨.call c next, stack⟩ w k L)
    (hx : X.occasion? c = some x) (u : Value) {ts : List Told} (hw : Peaceful X D w w')
    (hk : R.Keeps D (ts.foldl Record.hear k) w') :
    X.Prospect F D A R ⟨next (.ok u), stack⟩ w' (ts.foldl Record.hear k) (L ++ [x]) := by
  obtain ⟨σ, k₀, τ₀, rfl, rfl, rfl, hgoes⟩ := h
  let len := (X.occasions σ.calls).length
  let τ₁ : Nat → List Told := fun n => if n < len then τ₀ n else ts
  have hlen : (X.occasions σ.calls ++ [x]).length = len + 1 := by simp [len]
  refine ⟨σ.answered c w', k₀, τ₁, rfl, by simp [Moment.answered, occasions, hx], ?_,
    fun S τ hS hτ => ?_⟩
  · rw [hlen]
    exact heardAt_further fun _ _ => rfl
  · rw [hlen] at hτ
    have hS' : X.Accompanied F D R k₀ τ (Cast.answering S σ (.ok u) w') :=
      hS.answering hw (by rw [heardAt_further hτ]; exact hk) u
    obtain ⟨r, σ', hg, hend⟩ := hgoes _ τ hS' fun n hn => by
      rw [hτ n (Nat.lt_succ_of_lt hn)]
      simp [τ₁, len, hn]
    cases hg with
    | call hc _ _ => cases hx.symm.trans (hS'.body_eq_some.1 hc).1
    | left _ _ hg =>
      simp only [Cast.answering, if_true] at hg
      refine ⟨r, σ', hg.congr List.prefix_rfl rfl rfl
        (fun τ' c' hτ' => ?_) (fun _ _ h => h), hend⟩
      -- no later moment is the one at which the answer has been given
      have hne : τ' ≠ σ := by
        rintro rfl
        have hlt := hτ'.length_le
        simp only [Moment.answered, List.length_append, List.length_singleton] at hlt
        exact Nat.not_succ_le_self _ hlt
      simp [hne]

end Call

/-- **What is still to come** of a walk that is in the middle of something. -/
theorem Prospect.foresees (h : X.Prospect F D A R v w k L) :
    X.Foresees F R (X.walking D A) v w k
      (Occasion.callbacks ((X.course A fun _ => none).1.drop L.length)) := by
  generalize hn : (X.course A fun _ => none).1.length - L.length = n
  induction n using Nat.strongRecOn generalizing v w k L with
  | ind n ih =>
    obtain ⟨σ, k₀, τ₀, hσ, -, -, hgoes⟩ := id h
    obtain ⟨S, hS⟩ := X.exists_accompanied F D R k₀ τ₀
    obtain ⟨r, σ', hg, -⟩ := hgoes S τ₀ hS fun _ _ => rfl
    clear hgoes
    -- by induction on one run of the walk, up to the first occasion
    induction hg generalizing w with
    | ended o σ =>
      have hend := h.ended
      rw [← hend.occasions, List.drop_length]
      exact .ended hend.outcome hend.stands
    | back _ ihg => exact .goes rfl trivial (ihg (h.advance rfl) hσ)
    | @step β change next stack r σ σ' _ ihg =>
      obtain rfl : σ.world = w := hσ
      rw [hS.before] at ihg
      exact .goes rfl trivial (ihg (h.advance rfl) rfl)
    | @call c p next stack r σ σ' hc _ _ ihg =>
      obtain ⟨hnone, rfl⟩ := hS.body_eq_some.1 hc
      have hstep :
          (⟨.call c next, stack⟩ : Voice ε κ).advance X.isOutside (Walk.body F X.thread) w =
          some (⟨Walk.body F X.thread c, next :: stack⟩, w) := by
        simp [Voice.advance, isOutside, hnone]
      exact .goes hstep trivial (ihg (h.advance hstep) hσ)
    | @left c next stack r σ σ' hc _ _ _ =>
      obtain ⟨x, hx⟩ := hS.body_eq_none.1 hc
      obtain ⟨hstands, rest, hrest⟩ := h.call hx
      have hdrop : (X.course A fun _ => none).1.drop L.length = x :: rest := by
        simp [← hrest]
      have hcallbacks : Occasion.callbacks (x :: rest) =
          x.callback?.toList ++ Occasion.callbacks rest := by
        cases x <;> rfl
      rw [hdrop, hcallbacks]
      refine .calls hx hstands fun u w' ts hw hstands' => ?_
      have hlater := ih _ ?_ (h.answered hx u hw hstands'.keeps) rfl
      · rwa [← hrest, List.drop_left] at hlater
      · rw [← hn, ← hrest]
        simp
        omega

/-- **What is still to come at the beginning of a walk**, whatever others do before. -/
theorem SetsOut.awaits {e : Event} {args : List Value} (h : X.SetsOut F D e args A w) :
    X.Awaits F R (X.walking D A) ⟨Walk.send (.walker X.walker) (.entry e) args, []⟩ w k
      (X.walking D A : Role ε D).tells := by
  intro w' ts hw hstands
  have hscene : Scene X false D A [] .idle w' :=
    Peaceful.scene hw ⟨h.assembled, h.idle, by simp, h.fits⟩
  have h' : X.SetsOut F D e args A w' :=
    { h with assembled := hscene.assembled, idle := hscene.held, fits := hscene.fits }
  exact (h'.prospect hstands.keeps).foresees

end Cast

end GuardedWalk
