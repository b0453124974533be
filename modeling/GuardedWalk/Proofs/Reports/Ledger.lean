import GuardedWalk.Proofs.Document
import GuardedWalk.Proofs.Reports.Keeping

/-!
# No report is lost or invented

Any number of guards share a policy that writes reports. Guards, these and others, are put on nodes
and taken off again, visitors come to the nodes, some of them while others are on their way, and the
reports are summed up now and then. Whatever the order, the reports are about exactly the visits of
those who might not traverse a node for which one of these guards answered at that moment.

## Main definitions

* `GuardedWalk.Visit` — a visitor asks a guarded node for its traversal.
* `GuardedWalk.Visit.isFiled` — a visit is to be reported by a policy.
* `GuardedWalk.Dealings` — what may happen to a policy, with all visits in their order.

## Main results

* `GuardedWalk.Dealings.reporting` — the invariant of all dealings.
* `GuardedWalk.Dealings.no_report_lost_or_invented` — the reports and their summary.
-/

set_option autoImplicit false

namespace GuardedWalk

variable {ε κ : Type}

/-! ## Visits -/

/-- A visitor asks a guarded node for its traversal. -/
structure Visit (ε : Type) where
  /-- The world in which it does so. -/
  world : World ε
  /-- The calling thread. -/
  thread : Thread
  /-- The node. -/
  node : Ref .node
  /-- The visitor. -/
  visitor : Value

namespace Visit

/-- A visit is to be reported by a policy: the visitor may not traverse the node, and the guard that
answers for the node has the policy. -/
def isFiled (p : Ref .policy) (v : Visit ε) : Prop :=
  ¬ v.world.Entitles v.thread v.visitor ∧ ∃ g, v.world.tag? (.node v.node) = some (.guard g) ∧
    v.world.ownValue (.guard g) Guard.policyField = .policy p

/-- What is reported about a visit. -/
def attempt (v : Visit ε) : Attempt := v.world.attempt v.thread (.node v.node) v.visitor

/-- What a visit calls. -/
def program (v : Visit ε) : Walk.Steps ε κ Value := Walk.send (.node v.node) .accept [v.visitor]

open Classical in
/-- Those of some visits that are to be reported. -/
noncomputable def filed (p : Ref .policy) (vs : List (Visit ε)) : List (Visit ε) :=
  vs.filter fun v => v.isFiled p

end Visit

/-! ## What may happen -/

open Surroundings in
/-- What may happen to a policy, and the visits that there have been meanwhile, in their order. A
visit is made by the code of nodes, guards and policies. It may be left to others, to what the
wrapper of the node hides or to another policy; these may let anything happen before they answer. -/
inductive Dealings (F : Foreign ε κ) (p : Ref .policy) (N : Ref .node → Prop) :
    World ε → List (Visit ε) → World ε → Prop where
  /-- Nothing happens. -/
  | none (w : World ε) : Dealings F p N w [] w
  /-- One thing after another. -/
  | andThen {w w₁ w' : World ε} {vs vs' : List (Visit ε)} (h : Dealings F p N w vs w₁)
    (h' : Dealings F p N w₁ vs' w') : Dealings F p N w (vs ++ vs') w'
  /-- A guard is put on a node. -/
  | install {w : World ε} {g : Ref .guard} {r : Ref .node} (assignable : w.Open (.node r))
    (unhidden : w.Unhidden (.guard g)) (answerable : w.Answerable g) :
    Dealings F p N w [] (World.install F.obstruct w g (.node r)).2
  /-- The guard is taken off a node. -/
  | uninstall {w : World ε} {r : Ref .node} (usual : w.understands (.node r) .accept = true) :
    Dealings F p N w [] (w.uninstall (.node r)).2
  /-- Something else happens. -/
  | meanwhile {w w' : World ε} (bypasses : World.Bypasses p N w w') : Dealings F p N w [] w'
  /-- The reports are summed up. -/
  | summary {w : World ε} {t : Thread} {o : Outcome} {σ : Moment ε κ}
    (run : (alone (Walk.body F t)).Runs (Walk.send (.policy p) .statistics []) (.start w) o σ) :
    Dealings F p N w [] σ.world
  /-- A visit is not left to others. -/
  | answered {v : Visit ε} {o : Outcome} {σ : Moment ε κ} (known : N v.node)
    (guarded : v.world.isGuarded (.node v.node) = true) (settled : v.world.Settled v.visitor)
    (run : (alone (Walk.body F v.thread)).Runs v.program (.start v.world) o σ)
    (own : ∀ c σ₁, @Comes ε κ (alone (Walk.body F v.thread)) Outcome v.program (.start v.world) c
      σ₁ → c.isOthers p = false) :
    Dealings F p N v.world [v] σ.world
  /-- A visit is left to others. -/
  | handed {v : Visit ε} {o o₁ : Outcome} {w₁ : World ε} {c : Call κ} {σ σ₁ : Moment ε κ}
    {vs : List (Visit ε)} (known : N v.node)
    (guarded : v.world.isGuarded (.node v.node) = true) (settled : v.world.Settled v.visitor)
    (run : (besides F v.thread p o₁ w₁).Runs v.program (.start v.world) o σ)
    (comes : @Comes ε κ (besides F v.thread p o₁ w₁) Outcome v.program (.start v.world) c σ₁)
    (others : c.isOthers p = true) (inner : Dealings F p N σ₁.world vs w₁) :
    Dealings F p N v.world (v :: vs) σ.world

open Surroundings

/-! ## What becomes of a visit -/

section Visits

variable {F : Foreign ε κ} {p : Ref .policy} {N : Ref .node → Prop} {as : List Attempt}
  {v : Visit ε}

theorem Visit.isFiled_iff {g : Ref .guard} {q : Ref .policy}
    (htag : v.world.tag? (.node v.node) = some (.guard g))
    (hq : v.world.ownValue (.guard g) Guard.policyField = .policy q) :
    v.isFiled p ↔ ¬ v.world.Entitles v.thread v.visitor ∧ q = p := by
  refine and_congr_right fun _ => ⟨?_, ?_⟩
  · rintro ⟨g', htag', hp⟩
    obtain rfl := Value.guard.inj (Option.some.inj (htag.symm.trans htag'))
    exact Value.policy.inj (hq.symm.trans hp)
  · rintro rfl
    exact ⟨g, htag, hq⟩

/-- **A visit that is to be reported is reported**, whatever others would do. -/
theorem Visit.filed_yields {S : Surroundings ε κ} {R : Rule ε κ}
    (hmove : ∀ σ, S.move σ = σ.world)
    (hbody : ∀ c : Call κ, c.isOthers p = false → S.body c = some (Walk.body F v.thread c))
    (hR : ∀ (c : Call κ) σ, c.isOthers p = false → R c σ) (h : v.world.Reporting p N as)
    (hr : N v.node) (hguarded : v.world.isGuarded (.node v.node) = true)
    (hsettled : v.world.Settled v.visitor) (hfiled : v.isFiled p) :
    S.Yields R (.start v.world) v.program fun o σ =>
      o = .ok .none ∧ σ.world.Reporting p N (as ++ [v.attempt]) ∧
        ∀ q, World.Exempts q N v.world σ.world := by
  obtain ⟨g, q, inner, htag, hby, hg, ha, hq⟩ := h.meets hr hguarded
  obtain ⟨hno, rfl⟩ := (isFiled_iff htag hq).1 hfiled
  refine (Walk.filed_yields hmove hbody hR hby hg ha.quiet hq h.unhidden h.body h.files hsettled
    hno).mono ?_
  rintro o σ ⟨ho, l, j, hl, hw⟩
  exact ⟨ho, hw ▸ h.withReport hl v.attempt j, fun q => hw ▸ World.exempts_withReport v.world l _ j⟩

/-- **Any other visit is left to others.** -/
theorem Visit.handed_yields (o : Outcome) (w' : World ε) (h : v.world.Reporting p N as)
    (hr : N v.node) (hguarded : v.world.isGuarded (.node v.node) = true)
    (hsettled : v.world.Settled v.visitor) (hfiled : ¬ v.isFiled p) :
    (besides F v.thread p o w').Yields (fun c σ => c.isOthers p = true → v.world.Logs σ.world)
      (.start v.world) v.program fun r σ =>
        r = o ∧ σ.world = w' ∧ ∃ c ∈ σ.calls, c.isOthers p = true := by
  obtain ⟨g, q, inner, htag, hby, hg, ha, hq⟩ := h.meets hr hguarded
  refine Walk.handed_yields hby hg ha.quiet hq hsettled ?_
  rw [isFiled_iff htag hq] at hfiled
  by_cases hmay : v.world.Entitles v.thread v.visitor
  · exact .inl hmay
  · exact .inr fun hq => hfiled ⟨hmay, hq⟩

/-- A visit in which nothing is left to others is to be reported: any other one would have been left
to them in the first place. -/
theorem Visit.isFiled_of_answered {o : Outcome} {σ : Moment ε κ} (h : v.world.Reporting p N as)
    (hr : N v.node) (hguarded : v.world.isGuarded (.node v.node) = true)
    (hsettled : v.world.Settled v.visitor)
    (hrun : (alone (Walk.body F v.thread)).Runs v.program (.start v.world) o σ)
    (hown : ∀ c σ₁, @Comes ε κ (alone (Walk.body F v.thread)) Outcome v.program (.start v.world) c
      σ₁ → c.isOthers p = false) : v.isFiled p := by
  by_contra hfiled
  obtain ⟨r, σ', hruns, -, -, -, c, hc, hothers⟩ :=
    Visit.handed_yields (F := F) o v.world h hr hguarded hsettled hfiled
  obtain ⟨hamong, hcomes⟩ := hrun.among (S := besides F v.thread p o v.world) (fun _ => rfl)
    fun c σ₁ hc => by simp [besides, hown c σ₁ hc]
  obtain ⟨-, rfl⟩ := hamong.unique hruns
  obtain ⟨σ₁, hc₁⟩ := (hruns.calls c hc).resolve_left (by simp [Moment.start])
  exact absurd (hown c σ₁ (hcomes c σ₁ hc₁)) (by simp [hothers])

/-- A visit in which something is left to others is not to be reported. -/
theorem Visit.not_isFiled_of_handed {o : Outcome} {w' : World ε} {c : Call κ} {σ : Moment ε κ}
    (h : v.world.Reporting p N as) (hr : N v.node)
    (hguarded : v.world.isGuarded (.node v.node) = true) (hsettled : v.world.Settled v.visitor)
    (hcomes : @Comes ε κ (besides F v.thread p o w') Outcome v.program (.start v.world) c σ)
    (hothers : c.isOthers p = true) : ¬ v.isFiled p := by
  intro hfiled
  obtain ⟨o', σ', -, hrule, -⟩ := Visit.filed_yields (F := F)
    (S := besides F v.thread p o w') (R := fun c _ => c.isOthers p = false) (fun _ => rfl)
    (fun c hc => by simp [besides, hc]) (fun _ _ hc => hc) h hr hguarded hsettled hfiled
  exact absurd (hrule c σ hcomes) (by simp [hothers])

end Visits

/-! ## All dealings -/

namespace Visit

variable {p : Ref .policy} {v : Visit ε} {vs vs' : List (Visit ε)}

@[simp] theorem filed_nil : filed p ([] : List (Visit ε)) = [] := by simp [filed]

theorem filed_append : filed p (vs ++ vs') = filed p vs ++ filed p vs' := List.filter_append ..

theorem filed_cons_of_isFiled (h : v.isFiled p) : filed p (v :: vs) = v :: filed p vs := by
  simp [filed, h]

theorem filed_cons_of_not (h : ¬ v.isFiled p) : filed p (v :: vs) = filed p vs := by
  simp [filed, h]

end Visit

namespace Dealings

variable {F : Foreign ε κ} {p : Ref .policy} {N : Ref .node → Prop} {w w' : World ε}
  {vs : List (Visit ε)} {as : List Attempt}

/-- **In all dealings the policy has written the reports of exactly the visits that are to be
reported**, in their order. -/
theorem reporting (h : Dealings F p N w vs w') (h₀ : w.Reporting p N as) :
    w'.Reporting p N (as ++ (Visit.filed p vs).map Visit.attempt) := by
  induction h generalizing as with
  | none => simpa using h₀
  | andThen _ _ ih ih' =>
    rw [Visit.filed_append, List.map_append, ← List.append_assoc]
    exact ih' (ih h₀)
  | install assignable unhidden answerable =>
    simpa using h₀.install F.obstruct assignable unhidden answerable
  | uninstall usual => simpa using h₀.uninstall usual
  | meanwhile bypasses => simpa using h₀.bypasses bypasses
  | summary run =>
    obtain ⟨s, σ', hruns, hextends, -⟩ := h₀.statistics_runs F _
    obtain ⟨-, rfl⟩ := run.unique hruns
    simpa using h₀.bypasses (h₀.extends hextends)
  | answered known guarded settled run own =>
    have hfiled := Visit.isFiled_of_answered h₀ known guarded settled run own
    obtain ⟨o', σ', hruns, -, -, hw, -⟩ := Visit.filed_yields (S := alone (Walk.body F _))
      (fun _ => rfl) (fun _ _ => rfl) (R := .free ε κ) (fun _ _ _ => trivial) h₀ known guarded
      settled hfiled
    obtain ⟨-, rfl⟩ := run.unique hruns
    rw [Visit.filed_cons_of_isFiled hfiled]
    exact hw
  | @handed v o o₁ w₁ c σ σ₁ vs known guarded settled run comes others inner ih =>
    have hfiled := Visit.not_isFiled_of_handed h₀ known guarded settled comes others
    obtain ⟨r, σ', hruns, hrule, -, hw, -⟩ :=
      Visit.handed_yields (F := F) o₁ w₁ h₀ known guarded settled hfiled
    obtain ⟨-, rfl⟩ := run.unique hruns
    rw [Visit.filed_cons_of_not hfiled, hw]
    exact ih (h₀.bypasses (hrule c σ₁ comes others).bypasses)

/-- A visit that is to be reported can be made at any moment, and comes to nothing. -/
theorem visit_filed {v : Visit ε} (h : v.world.Reporting p N as) (known : N v.node)
    (guarded : v.world.isGuarded (.node v.node) = true) (settled : v.world.Settled v.visitor)
    (hfiled : v.isFiled p) :
    ∃ σ, (alone (Walk.body F v.thread)).Runs v.program (.start v.world) (.ok .none) σ ∧
      Dealings F p N v.world [v] σ.world ∧ ∀ q, World.Exempts q N v.world σ.world := by
  obtain ⟨o, σ, hruns, hrule, rfl, -, hexempts⟩ := Visit.filed_yields (F := F)
    (S := alone (Walk.body F v.thread)) (R := fun c _ => c.isOthers p = false) (fun _ => rfl)
    (fun _ _ => rfl) (fun _ _ hc => hc) h known guarded settled hfiled
  exact ⟨σ, hruns, .answered known guarded settled hruns hrule, hexempts⟩

/-- Any other visit can be made at any moment, and ends as others decide. -/
theorem visit_handed {v : Visit ε} (h : v.world.Reporting p N as) (known : N v.node)
    (guarded : v.world.isGuarded (.node v.node) = true) (settled : v.world.Settled v.visitor)
    (hfiled : ¬ v.isFiled p) {o : Outcome}
    (inner : ∀ w, v.world.Logs w → Dealings F p N w vs w') :
    ∃ σ, (besides F v.thread p o w').Runs v.program (.start v.world) o σ ∧
      Dealings F p N v.world (v :: vs) w' := by
  obtain ⟨r, σ, hruns, hrule, rfl, hw, c, hc, hothers⟩ :=
    Visit.handed_yields (F := F) o w' h known guarded settled hfiled
  obtain ⟨σ₁, hcomes⟩ := (hruns.calls c hc).resolve_left (by simp [Moment.start])
  refine ⟨σ, hruns, hw ▸ .handed known guarded settled hruns hcomes hothers ?_⟩
  exact inner _ (hrule c σ₁ hcomes hothers)

/-- A visit that is to be reported by another policy, in another list, can be made at any moment as
well. -/
theorem visit_filed_elsewhere {v : Visit ε} (h : v.world.Reporting p N as) (known : N v.node)
    (guarded : v.world.isGuarded (.node v.node) = true) (settled : v.world.Settled v.visitor)
    {q : Ref .policy} (hfiled : v.isFiled q) (hrecord : (v.world.policies.get q).body = .record)
    (hopen : v.world.Unhidden (.policy q)) {E : Ref .list → Prop} (hfiles : v.world.Files E q)
    (hE : ∀ l, v.world.ownValue (.policy p) Policy.reportsField = .list l → E l) :
    ∃ σ, (alone (Walk.body F v.thread)).Runs v.program (.start v.world) (.ok .none) σ ∧
      Dealings F p N v.world [v] σ.world ∧ ∀ q, World.Exempts q N v.world σ.world := by
  obtain ⟨g, q', inner, htag, hby, hg, ha, hq⟩ := h.meets known guarded
  obtain ⟨hno, rfl⟩ := (Visit.isFiled_iff htag hq).1 hfiled
  obtain ⟨o, σ, hruns, -, rfl, l, j, hl, hw⟩ := Walk.filed_yields (F := F) (R := .free ε κ)
    (S := alone (Walk.body F v.thread)) (fun _ => rfl) (fun _ _ => rfl) (fun _ _ _ => trivial)
    hby hg ha.quiet hq hopen hrecord hfiles settled hno
  have hapart : v.world.ownValue (.policy p) Policy.reportsField ≠ .list l := fun hp => by
    obtain ⟨l', hl', hno'⟩ := hfiles.reports
    obtain rfl := Value.list.inj (hl.symm.trans hl')
    exact hno' (hE l hp)
  have hother : ¬ v.isFiled p := fun hp => by
    obtain ⟨-, rfl⟩ := (Visit.isFiled_iff htag hq).1 hp
    exact hapart hl
  have hbypasses := h.bypasses_withReport hapart (Reports.report v.attempt) j
  have hinner : ∀ w, v.world.Logs w →
      Dealings F p N w [] (v.world.withReport l (Reports.report v.attempt) j) := by
    rintro w ⟨j', rfl⟩
    have hback : World.Logs { v.world with journal := j' } v.world := ⟨v.world.journal, rfl⟩
    exact (meanwhile hback.bypasses).andThen (.meanwhile hbypasses)
  obtain ⟨-, -, hvisit⟩ :=
    visit_handed (F := F) (o := .ok .none) h known guarded settled hother hinner
  exact ⟨σ, hruns, hw ▸ hvisit, fun q => hw ▸ World.exempts_withReport v.world l _ j⟩

/-- **No report is lost or invented.** Whatever guards come to some nodes and go, whoever visits the
nodes, and whatever else happens meanwhile, the reports of a policy are about exactly those visits
in which the visitor might not traverse the node and the guard that answered for the node at that
moment had the policy: one report for each of them, in order. At any moment the reports can be
summed up. The summary says how many reports there are; its tables have a key for every class that
occurs in a report and no other key, and under it the number of reports in which it occurs, so that
the numbers in either table add up to the number of reports. Nothing else happens when it is made.
Every visit that is to be reported comes to nothing. -/
theorem no_report_lost_or_invented {w₀ : World ε} (h : Dealings F p N w₀ vs w)
    (keeping : w₀.Keeping p N) (unused : w₀.reports p = []) :
    (∃ ds : List (Ref .dictionary), w.reports p = ds.map .dictionary ∧
      ds.map w.dictionaries.get = ((Visit.filed p vs).map Visit.attempt).map Reports.report) ∧
    (∀ t, ∃ s σ, (alone (Walk.body F t)).Runs (Walk.send (.policy p) .statistics []) (.start w)
        (.ok (.dictionary s)) σ ∧
      Reports.SumsUp σ.world s (w.reports p) ((Visit.filed p vs).map Visit.attempt) ∧
      Reports.Extends w σ.world ∧ σ.world.reports p = w.reports p) ∧
    ∀ v : Visit ε, v.world = w → N v.node → w.isGuarded (.node v.node) = true →
      w.Settled v.visitor → v.isFiled p →
      ∃ σ, (alone (Walk.body F v.thread)).Runs v.program (.start w) (.ok .none) σ ∧
        Dealings F p N w₀ (vs ++ [v]) σ.world := by
  have h₀ : w₀.Reporting p N [] := ⟨keeping, [], unused, by simp, rfl⟩
  have hreporting := h.reporting h₀
  rw [List.nil_append] at hreporting
  refine ⟨?_, fun t => ?_, ?_⟩
  · obtain ⟨ds, hds, -, hread⟩ := hreporting.written
    exact ⟨ds, hds, hread⟩
  · obtain ⟨s, σ, hruns, hextends, hsums⟩ := hreporting.statistics_runs F t
    exact ⟨s, σ, hruns, hsums, hextends, (hreporting.extends hextends).reports⟩
  · rintro v rfl known guarded settled hfiled
    obtain ⟨σ, hruns, hvisit, -⟩ := visit_filed (F := F) hreporting known guarded settled hfiled
    exact ⟨σ, hruns, h.andThen hvisit⟩

end Dealings

/-! ## Two guards with one policy, and a third one -/

namespace Reception

open World

/-- Foreign code that keeps nothing from being assigned. -/
def code : Foreign Unit Empty := .silent .numberTooLarge

/-- A small document, two policies that write reports, two guards with the first policy and one with
the second. -/
def world : World Unit :=
  { Document.loginWorld with
    lists := ⟨Document.loginWorld.lists.cells ++ #[#[], #[]]⟩
    locks := ⟨#[()]⟩
    policies := ⟨#[⟨.record, Policy.recording (.list ⟨4⟩) (.bool true) (.lock ⟨0⟩)⟩,
      ⟨.record, Policy.recording (.list ⟨5⟩) (.bool true) (.lock ⟨0⟩)⟩]⟩
    guards := ⟨#[.new .none .none (.policy ⟨0⟩) (.bool true),
      .new .none .none (.policy ⟨0⟩) (.bool true),
      .new .none .none (.policy ⟨1⟩) (.bool true)]⟩ }

/-- The nodes of the document. -/
def nodes (r : Ref .node) : Prop := r.index < 7

theorem keeping : world.Keeping ⟨0⟩ nodes where
  body := rfl
  unhidden := unhidden_of_names (by decide)
  files :=
    { reports := ⟨⟨4⟩, rfl, fun h => h⟩
      lock := ⟨⟨0⟩, rfl⟩
      verbose := fun r h => by cases h }
  listed l hl := by
    obtain rfl := Value.list.inj hl
    decide
  known r hr :=
    have hunguarded := Document.login_unguarded (w := world) rfl hr
    ⟨hunguarded.1, none, hunguarded.2.1⟩
  answers r hr g hg := by cases (Document.login_unguarded rfl hr).2.2.symm.trans hg

/-- The policy that a guard asks. -/
def policyOf : Fin 3 → Ref .policy
  | 0 | 1 => ⟨0⟩
  | 2 => ⟨1⟩

/-- The three guards can be put on a node, and the second policy can write reports. -/
structure Ready (w : World Unit) : Prop where
  assignable : w.Open (.node ⟨1⟩)
  unhidden : ∀ i : Fin 3, w.Unhidden (.guard ⟨i⟩)
  answerable : ∀ i : Fin 3, w.Answerable ⟨i⟩
  policy : ∀ i : Fin 3, w.ownValue (.guard ⟨i⟩) Guard.policyField = .policy (policyOf i)
  list : w.ownValue (.policy ⟨0⟩) Policy.reportsField = .list ⟨4⟩
  body : (w.policies.get ⟨1⟩).body = .record
  visible : w.Unhidden (.policy ⟨1⟩)
  files : w.Files (· = ⟨4⟩) ⟨1⟩

theorem ready : Ready world where
  assignable _ _ := rfl
  unhidden i := unhidden_of_names (by decide +revert)
  answerable := fun
    | 0 => ⟨by decide, fun r h => (by cases h), ⟨0⟩, rfl⟩
    | 1 => ⟨by decide, fun r h => (by cases h), ⟨0⟩, rfl⟩
    | 2 => ⟨by decide, fun r h => (by cases h), ⟨1⟩, rfl⟩
  policy := by decide
  list := rfl
  body := rfl
  visible := unhidden_of_names (by decide)
  files :=
    { reports := ⟨⟨5⟩, rfl, by decide⟩
      lock := ⟨⟨0⟩, rfl⟩
      verbose := fun r h => by cases h }

theorem Ready.exempts {w w' : World Unit} {N : Ref .node → Prop} (h : Ready w)
    (hs : ∀ q, Exempts q N w w') : Ready w' where
  assignable := h.assignable.frame (hs ⟨0⟩).toFrame
  unhidden i := (hs ⟨0⟩).guards _ (h.unhidden i)
  answerable i := (h.answerable i).exempts (hs ⟨0⟩)
  policy i :=
    ((hs ⟨0⟩).ownValue (.inr ⟨_, rfl, (h.answerable i).stored⟩) (by decide)).trans (h.policy i)
  list := ((hs ⟨0⟩).ownValue (.inl rfl) (by decide)).trans h.list
  body := (hs ⟨1⟩).body.trans h.body
  visible := (hs ⟨1⟩).unhidden (.inl rfl) h.visible
  files := h.files.frame (hs ⟨1⟩).toFrame (.inl rfl)

/-- A stranger comes to the node. -/
def stranger (w : World Unit) : Visit Unit := ⟨w, .main, ⟨1⟩, .text "stranger"⟩

theorem known_stranger (w : World Unit) : nodes (stranger w).node := by
  show 1 < 7
  decide

/-- A guard is put on the node. -/
theorem Ready.retag {w : World Unit} {as : List Attempt} (h : Ready w)
    (hr : w.Reporting ⟨0⟩ nodes as) (i : Fin 3) :
    ∃ w', Dealings code ⟨0⟩ nodes w [] w' ∧ Ready w' ∧
      w'.tag? (.node ⟨1⟩) = some (.guard ⟨i⟩) := by
  obtain ⟨ho, own, hm⟩ := hr.known ⟨1⟩ (known_stranger w)
  refine ⟨_, .install h.assignable (h.unhidden i) (h.answerable i),
    h.exempts fun _ => (install_bypasses code.obstruct h.assignable (h.unhidden i)).toExempts, ?_⟩
  rw [install_tag code.obstruct h.assignable (h.unhidden i) hm ho, if_pos rfl]

theorem shownGuard?_stranger (w : World Unit) : w.shownGuard? (.text "stranger") = none := rfl

theorem settled_stranger (w : World Unit) : w.Settled (stranger w).visitor := fun g hg => by
  simp [stranger, shownGuard?_stranger] at hg

theorem isFiled_stranger {w : World Unit} (h : Ready w) {i : Fin 3}
    (htag : w.tag? (.node ⟨1⟩) = some (.guard ⟨i⟩)) (q : Ref .policy) :
    (stranger w).isFiled q ↔ policyOf i = q :=
  (Visit.isFiled_iff (v := stranger w) htag (h.policy i)).trans
    (and_iff_right (not_entitles_of_none (shownGuard?_stranger w)))

/-- A guard comes to the node, and then a stranger. -/
theorem Ready.visit {w : World Unit} {as : List Attempt} (h : Ready w)
    (hr : w.Reporting ⟨0⟩ nodes as) (i : Fin 3) :
    ∃ v w', Dealings code ⟨0⟩ nodes w [v] w' ∧ Ready w' ∧
      (v.isFiled ⟨0⟩ ↔ policyOf i = ⟨0⟩) := by
  obtain ⟨w₁, hinstall, h₁, htag⟩ := h.retag hr i
  have hr₁ := hinstall.reporting hr
  have hguarded : w₁.isGuarded (.node ⟨1⟩) = true := by rw [isGuarded, htag]; rfl
  have hfiled := isFiled_stranger h₁ htag
  obtain ⟨σ, -, hvisit, hexempts⟩ : ∃ σ,
      (alone (Walk.body code .main)).Runs (stranger w₁).program (.start w₁) (.ok .none) σ ∧
        Dealings code ⟨0⟩ nodes w₁ [stranger w₁] σ.world ∧ ∀ q, Exempts q nodes w₁ σ.world := by
    have hpolicy : ∀ i, policyOf i = ⟨0⟩ ∨ policyOf i = ⟨1⟩ := by decide
    rcases hpolicy i with hi | hi
    · exact Dealings.visit_filed (v := stranger w₁) hr₁ (known_stranger w₁) hguarded
        (settled_stranger w₁) ((hfiled ⟨0⟩).2 hi)
    · exact Dealings.visit_filed_elsewhere (v := stranger w₁) hr₁ (known_stranger w₁) hguarded
        (settled_stranger w₁) ((hfiled ⟨1⟩).2 hi) h₁.body h₁.visible h₁.files
        fun l hl => Value.list.inj (hl.symm.trans h₁.list)
  exact ⟨_, _, hinstall.andThen hvisit, h₁.exempts hexempts, hfiled ⟨0⟩⟩

end Reception

open Reception Dealings in
/-- A node gets a guard, is given to one with another policy and then to a second guard with the
first policy, and a stranger comes each time. The first and the last visit are reported. -/
theorem two_of_three_visits_are_reported :
    ∃ (v₁ v₂ v₃ : Visit Unit) (w : World Unit) (ds : List (Ref .dictionary)),
      Dealings code ⟨0⟩ nodes Reception.world [v₁, v₂, v₃] w ∧
        w.reports ⟨0⟩ = ds.map .dictionary ∧
        ds.map w.dictionaries.get = [Reports.report v₁.attempt, Reports.report v₃.attempt] := by
  have hr₀ : Reception.world.Reporting ⟨0⟩ nodes [] := ⟨keeping, [], rfl, by simp, rfl⟩
  obtain ⟨v₁, w₁, h₁, ready₁, hfiled₁⟩ := ready.visit hr₀ 0
  obtain ⟨v₂, w₂, h₂, ready₂, hfiled₂⟩ := ready₁.visit (h₁.reporting hr₀) 2
  have h₁₂ := h₁.andThen h₂
  obtain ⟨v₃, w₃, h₃, -, hfiled₃⟩ := ready₂.visit (h₁₂.reporting hr₀) 1
  obtain ⟨⟨ds, hds, hread⟩, -⟩ := no_report_lost_or_invented (h₁₂.andThen h₃) keeping rfl
  have hfirst : v₁.isFiled ⟨0⟩ := hfiled₁.2 rfl
  have hsecond : ¬ v₂.isFiled ⟨0⟩ := fun h => absurd (hfiled₂.1 h) (by decide)
  have hthird : v₃.isFiled ⟨0⟩ := hfiled₃.2 rfl
  refine ⟨v₁, v₂, v₃, w₃, ds, h₁₂.andThen h₃, hds, hread.trans ?_⟩
  simp [Visit.filed_cons_of_isFiled hfirst, Visit.filed_cons_of_not hsecond,
    Visit.filed_cons_of_isFiled hthird]

end GuardedWalk
