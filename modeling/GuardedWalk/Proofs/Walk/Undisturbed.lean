import GuardedWalk.Proofs.Walk.Trying

/-!
# Attempts do not disturb a walk

A walk goes through its document while some of its observers take notes and others ask guarded nodes
for their traversal. All guards that have been put on these nodes leave the answer to policies of
one kind, which refuse or write reports. What the first observers note is then the same as if the
others had asked nothing.

## Main definitions

* `GuardedWalk.Company` — observers some of which take notes while others make attempts.
* `GuardedWalk.Company.Present` — such a company attends a walk.

## Main results

* `GuardedWalk.Company.hosts` — a walk can go on in such company.
* `GuardedWalk.Company.attempts_leave_walk_alone` — attempts do not show in what is noted.
-/

set_option autoImplicit false

namespace GuardedWalk

open Surroundings
open Walk (sheltered Strays)

/-- An audience some of which makes attempts at nodes that policies answer for. -/
structure Company extends Audience where
  /-- The nodes at which attempts are made. -/
  nodes : Ref .node → Prop
  /-- How policies answer. -/
  answer : PolicyBody

namespace Company

variable {ε κ : Type} {P : Company} {w w' : World ε} {g : Ref .guard}
  {records : Recorder → Record}

/-- A company attends the walks of a walker with a certain guard: it listens, and policies of one
kind answer for the guard of the walker and for all nodes at which attempts are made. -/
structure Present (P : Company) (g : Ref .guard) (records : Recorder → Record) (w : World ε) :
    Prop extends P.Listens records w where
  answers : P.answer = .record ∨ P.answer = .reject
  policed : w.Policed P.answer P.Kept P.nodes
  guard : w.Polices P.answer P.Kept g

theorem Present.congr (h : P.Present g records w) {records' : Recorder → Record}
    (hsame : ∀ R ∈ P.recorders, records' R = records R) : P.Present g records' w :=
  { h with toListens := h.toListens.congr hsame }

/-! ## What leaves a company alone -/

theorem Present.beside {E : Ref .list → Prop} (h : P.Present g records w)
    (hb : World.Beside E w w') {records' : Recorder → Record}
    (hlistens : P.Listens records' w') : P.Present g records' w' where
  toListens := hlistens
  answers := h.answers
  policed := hb.policed h.policed
  guard := h.guard.frame hb.toFrame (fun _ _ => trivial) hb.policies

theorem Present.mild (h : P.Present g records w) (hw : w.Mild w') (hn : w'.nodes = w.nodes) :
    P.Present g records w' where
  toListens := h.toListens.mild hw
  answers := h.answers
  policed := h.policed.frame hw.toFrame (fun _ hv => hv) hw.policies hn
  guard := h.guard.frame hw.toFrame (fun _ hv => hv) hw.policies

theorem Present.install (h : P.Present g records w) (obstruct : Obstruction ε) {v : Value}
    (hv : w.Open v) : P.Present g records (World.install obstruct w g v).2 := by
  have hpoliced := h.policed.install obstruct hv h.guard
  obtain ⟨b, w', hrun, hstill, -⟩ := World.install_run obstruct hv h.guard.unhidden
  rw [hrun] at hpoliced ⊢
  exact {
    toListens := h.toListens.mild hstill.toMild
    answers := h.answers
    policed := hpoliced
    guard := h.guard.frame hstill.toFrame (fun _ hv => hv) hstill.policies }

/-! ## A walk in company -/

/-- What is the case throughout a walk in company: those who make attempts remember what they have
been told, and all nodes that they know, or that a guard has been put on, are guarded. -/
structure Attends (P : Company) (g : Ref .guard) (records : Recorder → Record)
    (w : World (List Callback)) (L : List (Occasion κ)) : Prop where
  present : P.Present g (Audience.recordsAfter records (Occasion.callbacks L)) w
  foreign : w.foreign = (Occasion.callbacks L).filter (·.1 ∈ P.others)
  guarded : ∀ r, P.nodes r → .guarded (.node r) ∈ L → w.isGuarded (.node r) = true
  known : ∀ r, P.nodes r → w.foreign.any (·.2.isAbout r) = true → w.isGuarded (.node r) = true

/-- The setting of a walk in company. -/
def setting (P : Company) (F : Foreign (List Callback) κ) (X : Cast)
    (records : Recorder → Record) (A : Agenda κ) : Setting (List Callback) κ where
  cast := X
  strict := false
  lists := P.lists
  root := A
  inv := P.Attends X.guard records
  verdict _ := none
  rule := sheltered F X P.answer

section Hosts

variable {F : Foreign (List Callback) κ} {X : Cast} {A : Agenda κ} {plan : Plan}
  {w w' : World (List Callback)} {L : List (Occasion κ)} {σ : Moment (List Callback) κ}

theorem Attends.mild (h : P.Attends g records w L) (hw : w.Mild w') (hn : w'.nodes = w.nodes) :
    P.Attends g records w' L where
  present := h.present.mild hw hn
  foreign := hw.foreign.trans h.foreign
  guarded r hr hL := (World.isGuarded_of_nodes hn r).trans (h.guarded r hr hL)
  known r hr hk := by
    rw [hw.foreign] at hk
    exact (World.isGuarded_of_nodes hn r).trans (h.known r hr hk)

/-- A node that an observer is told of is guarded, like those that it knows already. -/
theorem Attends.known_next (h : P.Attends g records w L) {o : Ref .observer} {n : Told}
    (hn : n.Prepared L) (r : Ref .node) (hr : P.nodes r)
    (hk : (w.foreign ++ [(o, n)]).any (·.2.isAbout r) = true) :
    w.isGuarded (.node r) = true := by
  rw [List.any_append, Bool.or_eq_true] at hk
  rcases hk with hk | hk
  · exact h.known r hr hk
  · refine h.guarded r hr ?_
    have habout : n.isAbout r = true := by simpa using hk
    unfold Told.isAbout at habout
    split at habout
    · obtain rfl := of_decide_eq_true habout
      exact hn
    · cases habout

/-- The guard of the walker is put on a value. -/
theorem Attends.install (h : P.Attends g records w L) (obstruct : Obstruction (List Callback))
    {v : Value} (hv : w.Open v) :
    P.Attends g records (World.install obstruct w g v).2 (L ++ [.guarded v]) := by
  have hg := h.present.guard.unhidden
  have hretains := h.present.policed.retains_install obstruct hv hg
  refine {
    present := by
      rw [Occasion.callbacks_guarded]
      exact h.present.install obstruct hv
    foreign := by
      rw [Occasion.callbacks_guarded]
      exact hretains.foreign.trans h.foreign
    guarded := fun r hr hL => ?_
    known := fun r hr hk => ?_ }
  · rcases List.mem_append.1 hL with hL | hL
    · exact hretains.guarded r hr (h.guarded r hr hL)
    · obtain rfl : Value.node r = v := by simpa using hL
      exact h.present.policed.guarded_install obstruct hr hv hg
  · rw [hretains.foreign] at hk
    exact hretains.guarded r hr (h.known r hr hk)

/-- A recorder is told something. -/
theorem Attends.jots {σ' : Moment (List Callback) κ} {R : Recorder}
    (h : P.Attends g records σ.world L) (hR : R ∈ P.recorders) {n : Told}
    (hj : R.Jots P.lists ((Audience.recordsAfter records (Occasion.callbacks L) R).hear n) σ σ') :
    P.Attends g records σ'.world (L ++ [.told R.observer n]) := by
  obtain ⟨ls, ts, hw, -, -⟩ := hj.world
  have hnodes : σ'.world.nodes = σ.world.nodes := by rw [hw]
  have hforeign : σ'.world.foreign = σ.world.foreign := by rw [hw]
  have hother : R.observer ∉ P.others := fun ho => h.present.not_other hR ho rfl
  refine {
    present := h.present.beside hj.beside ?_
    foreign := ?_
    guarded := fun r hr hL => ?_
    known := fun r hr hk => ?_ }
  · rw [Occasion.callbacks_told]
    refine h.present.jots hR ?_ fun R' _ hne => Audience.recordsAfter_of_ne (Ne.symm hne)
    rw [Audience.recordsAfter_self]
    exact hj
  · rw [hforeign, h.foreign, Occasion.callbacks_told, List.filter_append]
    simp [hother]
  · rw [World.isGuarded_of_nodes hnodes]
    exact h.guarded r hr (by simpa using hL)
  · rw [hforeign] at hk
    rw [World.isGuarded_of_nodes hnodes]
    exact h.known r hr hk

/-- An observer that makes attempts is told something. -/
theorem Attends.strays {σ' : Moment (List Callback) κ} {o : Ref .observer}
    (h : P.Attends g records σ.world L) (ho : o ∈ P.others) {n : Told}
    (hs : Strays P.Kept σ σ') (hforeign : σ'.world.foreign = σ.world.foreign ++ [(o, n)])
    (hprepared : n.Prepared L) : P.Attends g records σ'.world (L ++ [.told o n]) := by
  have hnodes := hs.beside.sameNodes
  refine {
    present :=
      (h.present.beside hs.beside (h.present.toListens.beside hs.beside)).congr fun R hR => ?_
    foreign := ?_
    guarded := fun r hr hL => ?_
    known := fun r hr hk => ?_ }
  · rw [Occasion.callbacks_told]
    exact Audience.recordsAfter_of_ne fun heq => h.present.not_other hR ho heq.symm
  · rw [hforeign, h.foreign, Occasion.callbacks_told, List.filter_append]
    simp [ho]
  · rw [World.isGuarded_of_nodes hnodes]
    exact h.guarded r hr (by simpa using hL)
  · rw [World.isGuarded_of_nodes hnodes]
    rw [hforeign] at hk
    exact h.known_next hprepared r hr hk

/-- A walk in company has come to somewhere, and nothing has failed on the way. -/
def GoesOn (P : Company) (F : Foreign (List Callback) κ) (X : Cast)
    (records : Recorder → Record) (A : Agenda κ) (pins : List Pin) (h : Hold)
    (L : List (Occasion κ)) (r : Outcome) (σ : Moment (List Callback) κ) : Prop :=
  (P.setting F X records A).Going pins h L σ ∧ failure? r = none

section Hears

variable {pins : List Pin} {s : Ref .session} {d : Nat} {n : Told}
  (hg : (P.setting (F.trying plan) X records A).Going pins (.owned s d) L σ)
include hg

/-- An observer that makes attempts is told something, and makes them. -/
theorem tries_told {o : Ref .observer} (ho : o ∈ X.observers) (hother : o ∈ P.others)
    (hplan : ∀ history, ∀ p ∈ plan history, P.nodes p.1) (hprepared : n.Prepared L) :
    (alone (Walk.body (F.trying plan) X.thread)).Yields (sheltered (F.trying plan) X P.answer) σ
      (Routine.invoke (n.call o))
      (P.GoesOn (F.trying plan) X records A pins (.owned s d) (L ++ [.told o n])) := by
  have hopen : (σ.calling (n.call o)).window = .open := by cases n <;> rfl
  have hrule : sheltered (F.trying plan) X P.answer (n.call o : Call κ) σ := by
    cases n <;> exact Walk.sheltered_of_ne (by simp) (by simp) σ
  have hoccasions := hg.occasions_calling (Cast.occasion?_call ho n)
  have hi : P.Attends X.guard records (σ.calling (n.call o)).world L := hg.inv
  refine .invoke rfl hrule (Walk.mindful_yields Walk.sparesLists_sheltered
    (hi.present.scripted o hother) hg.scene.assembled.events hopen n fun σ₁ h₁ hforeign => ?_)
  have hforeign : σ₁.world.foreign = σ.world.foreign ++ [(o, n)] := hforeign
  have hknown : ∀ r, P.nodes r → (σ.world.foreign ++ [(o, n)]).any (·.2.isAbout r) = true →
      σ₁.world.isGuarded (.node r) = true := fun r hr hk => by
    rw [World.isGuarded_of_nodes h₁.beside.sameNodes]
    exact hi.known_next hprepared r hr hk
  refine .bind ((Walk.tryAll_yields hi.present.answers _ (h₁.beside.policed hi.present.policed)
    (hplan _) hknown h₁.window).mono ?_)
  rintro r σ' ⟨rfl, hs, hmemory⟩
  have hall : Strays P.Kept (σ.calling (n.call o)) σ' := h₁.trans hs
  have hscene : (P.setting (F.trying plan) X records A).Scene pins (.owned s d) σ'.world :=
    (hall.beside.peaceful (fun l hl => .inl hl) X).scene hg.scene
  have hattends : P.Attends X.guard records σ'.world (L ++ [.told o n]) :=
    hi.strays hother hall (hmemory.trans hforeign) hprepared
  exact .pure ⟨⟨hscene, hattends, (hall.turns.occasions X).trans hoccasions, rfl⟩, rfl⟩

/-- A recorder is told something, and notes it. -/
theorem recorder_told {R : Recorder} (ho : R.observer ∈ X.observers) (hR : R ∈ P.recorders) :
    (alone (Walk.body (F.trying plan) X.thread)).Yields (sheltered (F.trying plan) X P.answer) σ
      (Routine.invoke (n.call R.observer))
      (P.GoesOn (F.trying plan) X records A pins (.owned s d) (L ++ [.told R.observer n])) := by
  have hopen : (σ.calling (n.call R.observer)).window = .open := by cases n <;> rfl
  have hrule : sheltered (F.trying plan) X P.answer (n.call R.observer : Call κ) σ := by
    cases n <;> exact Walk.sheltered_of_ne (by simp) (by simp) σ
  have hi : P.Attends X.guard records (σ.calling (n.call R.observer)).world L := hg.inv
  refine .invoke rfl hrule (Recorder.told_yields Walk.sparesLists_sheltered
    (hi.present.notes R hR) hopen n fun σ' hj => ?_)
  have hattends : P.Attends X.guard records σ'.world (L ++ [.told R.observer n]) :=
    hi.jots hR hj
  exact ⟨⟨hj.scene hg.scene, hattends,
    hj.heard.trans (hg.occasions_calling (Cast.occasion?_call ho n)), rfl⟩, rfl⟩

end Hears

/-- **A walk can go on in such company.** -/
theorem hosts (hobservers : P.Hears X)
    (hplan : ∀ history, ∀ p ∈ plan history, P.nodes p.1) (hA : A.IsWritten) :
    (P.setting (F.trying plan) X records A).Hosts (F.trying plan)
      (alone (Walk.body (F.trying plan) X.thread)) where
  body _ _ := rfl
  own _ σ hc := Walk.sheltered_of_isOwn hc σ
  coded := hA.coded (F.trying plan) X.thread _
  move _ _ _ _ hw hi := ⟨hw, hi⟩
  onward _ _ _ hf hi := hi.mild hf.toMild hf.sameNodes
  guards _ _ _ _ _ _ _ hv hi := hi.install _ hv.1
  hears pins s d L σ o n ho hprepared hg := by
    rcases hobservers o ho with hother | ⟨R, hR, rfl⟩
    · exact tries_told hg ho hother hplan hprepared
    · exact recorder_told hg ho hR
  answers pins h L σ c hc := by
    rw [show (P.setting (F.trying plan) X records A).root.asks = [] from hA.asks] at hc
    cases hc

/-- What is heard of in such a walk does not depend on what is attempted. -/
theorem outcome_setting :
    (P.setting F X records A).outcome [] =
      if X.timeout.outlastsTime then ([], some .numberTooLarge) else (A.occasions X, none) := by
  rw [Setting.outcome, Setting.tell_of_verdict fun _ => rfl]
  rfl

/-- A walk through a document in such company comes to an end. -/
theorem walk_yields {D : Document} {e : Event} (hD : D.Fits P.lists w) (hX : X.Assembled w)
    (hidle : Held w X .idle) (he : e.entersNode = true)
    (hobservers : P.Hears X)
    (hP : P.Present X.guard records w) (hforeign : w.foreign = [])
    (hplan : ∀ history, ∀ p ∈ plan history, P.nodes p.1) :
    (alone (Walk.body (F.trying plan) X.thread)).Yields (sheltered (F.trying plan) X P.answer)
      (.start w) (Walk.send (.walker X.walker) (.entry e) [D.value]) fun r σ =>
      (P.setting (F.trying plan) X records (D.entered e : Agenda κ)).Going [] .idle
        ((P.setting F X records (D.entered e : Agenda κ)).outcome []).1 σ ∧
        failure? r = ((P.setting F X records (D.entered e : Agenda κ)).outcome []).2 := by
  have hgoing : (P.setting (F.trying plan) X records (D.entered e)).Going [] .idle []
      (.start w) := by
    refine ⟨⟨hX, hidle, by simp, hD.entered he⟩, ⟨hP, hforeign, by simp, ?_⟩, rfl, rfl⟩
    intro r _ hk
    simp [Moment.start, hforeign] at hk
  have hlasts : (P.setting (F.trying plan) X records (D.entered e : Agenda κ)).Lasts :=
    fun _ _ _ hf hi => hi.mild hf.toMild hf.sameNodes
  have hwalk := (hosts hobservers hplan (D.isWritten_entered e)).walk hlasts
    (Event.ne_announce_of_entersNode he) rfl hgoing
  rwa [outcome_setting, ← outcome_setting (F := F)] at hwalk

/-- **Attempts do not disturb a walk.** Some observers of a walk through a document take notes, and
others ask nodes for their traversal whenever they are told something, as often as they like: nodes
that they have been told of, or that are guarded, in the name of anybody who shows no guard. The
guard of the walker and those that have been put on these nodes before leave the answer to policies
that all record attempts, or all reject them. Then each recorder notes the same as in a walk without
any attempt, and the walk ends in the same way. No node calls an entry method of anybody but the
walker. If policies record, each attempt comes to nothing and the policy of the guard that answers
for the node at that moment gets one report, and no other policy gets any. -/
theorem attempts_leave_walk_alone {D : Document} {e : Event} (hD : D.Fits P.lists w)
    (hX : X.Assembled w) (hidle : Held w X .idle) (he : e.entersNode = true)
    (hobservers : P.Hears X)
    (hP : P.Present X.guard records w) (hforeign : w.foreign = [])
    (hplan : ∀ history, ∀ p ∈ plan history, P.nodes p.1) :
    ∃ (r r₀ : Outcome) (σ σ₀ : Moment (List Callback) κ),
      (alone (Walk.body (F.trying plan) X.thread)).Runs
        (Walk.send (.walker X.walker) (.entry e) [D.value]) (.start w) r σ ∧
      (∀ c σ₁, @Comes _ κ (alone (Walk.body (F.trying plan) X.thread)) Outcome
        (Walk.send (.walker X.walker) (.entry e) [D.value]) (.start w) c σ₁ →
          sheltered (F.trying plan) X P.answer c σ₁) ∧
      (alone (Walk.body (F.trying fun _ => []) X.thread)).Runs
        (Walk.send (.walker X.walker) (.entry e) [D.value]) (.start w) r₀ σ₀ ∧
      failure? r = failure? r₀ ∧ X.heard σ.calls = X.heard σ₀.calls ∧
      ∀ R ∈ P.recorders, ∃ k, R.Keeps P.lists k σ.world ∧ R.Keeps P.lists k σ₀.world := by
  obtain ⟨r, σ, hruns, hrule, hg, hr⟩ :=
    walk_yields hD hX hidle he hobservers hP hforeign hplan
  have hnone : ∀ history : List Callback,
      ∀ p ∈ (fun _ => [] : Plan) history, P.nodes p.1 := fun _ p hp => absurd hp List.not_mem_nil
  obtain ⟨r₀, σ₀, hruns₀, -, hg₀, hr₀⟩ :=
    walk_yields (F := F) (κ := κ) hD hX hidle he hobservers hP hforeign hnone
  have hheard : X.occasions σ.calls = X.occasions σ₀.calls := hg.heard.trans hg₀.heard.symm
  refine ⟨r, r₀, σ, σ₀, hruns, hrule, hruns₀, hr.trans hr₀.symm, ?_, fun R hR => ?_⟩
  · rw [← Cast.callbacks_occasions, hheard, Cast.callbacks_occasions]
  · exact ⟨_, hg.inv.present.notes R hR, hg₀.inv.present.notes R hR⟩

end Hosts

/-! ## A small document -/

namespace Pestering

open Pair

/-- The audience of the small document, one of whom makes attempts. -/
def company : Company where
  toAudience := audience
  nodes r := r.index < 7
  answer := .record

/-- Whatever it is told, the observer asks a feature and its scenario for their traversal, twice, in
its own name. -/
def plan : Plan := fun _ =>
  [(⟨1⟩, .observer ⟨1⟩), (⟨2⟩, .observer ⟨1⟩), (⟨1⟩, .observer ⟨1⟩), (⟨2⟩, .observer ⟨1⟩)]

theorem plan_nodes : ∀ history, ∀ p ∈ plan history, company.nodes p.1 := by
  intro history
  show ∀ p ∈ plan [], p.1.index < 7
  decide

/-- There is only one policy that keeps reports. -/
theorem policy_eq {p : Ref .policy} {l : Ref .list}
    (h : world.ownValue (.policy p) Policy.reportsField = .list l) : p = ⟨0⟩ := by
  obtain ⟨_ | i⟩ := p
  · rfl
  · cases h

theorem policed : world.Policed .record audience.Kept company.nodes where
  apart p p' l h h' := (policy_eq h').trans (policy_eq h).symm
  known r hr :=
    have hunguarded := Document.login_unguarded (w := world) rfl hr
    ⟨hunguarded.1, none, hunguarded.2.1⟩
  answers r hr g hg := by cases (Document.login_unguarded rfl hr).2.2.symm.trans hg

theorem polices : world.Polices .record audience.Kept cast.guard where
  unhidden := World.unhidden_of_names (by decide)
  quiet r h := by cases h
  policy := ⟨⟨0⟩, rfl, World.unhidden_of_names (by decide), rfl, fun _ =>
    { reports := ⟨⟨8⟩, rfl, by simp [kept_iff]⟩
      lock := ⟨⟨1⟩, rfl⟩
      verbose := fun r h => by cases h }⟩

theorem present : company.Present cast.guard (fun _ => .blank) world where
  toListens := listens
  answers := .inl rfl
  policed := policed
  guard := polices

end Pestering

open Pair Pestering in
/-- The recorder notes the same about the small document whether or not the other observer asks its
feature and its scenario for their traversal again and again. -/
theorem attempts_leave_small_document_alone :
    ∃ (r r₀ : Outcome) (σ σ₀ : Moment (List Callback) Empty),
      (alone (Walk.body (code.trying plan) cast.thread)).Runs
        (Walk.send (.walker cast.walker) (.entry .features) [Document.login.value])
        (.start world) r σ ∧
      (alone (Walk.body (code.trying fun _ => []) cast.thread)).Runs
        (Walk.send (.walker cast.walker) (.entry .features) [Document.login.value])
        (.start world) r₀ σ₀ ∧
      failure? r = failure? r₀ ∧
      ∃ k, recorder.Keeps (4 : Nat) k σ.world ∧ recorder.Keeps (4 : Nat) k σ₀.world := by
  obtain ⟨r, r₀, σ, σ₀, hruns, -, hruns₀, hr, -, hnotes⟩ :=
    attempts_leave_walk_alone (F := code) fits assembled held (e := .features) rfl hears present
      rfl plan_nodes
  exact ⟨r, r₀, σ, σ₀, hruns, hruns₀, hr, hnotes recorder (by simp [company, audience])⟩

end Company

end GuardedWalk
