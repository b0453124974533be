import GuardedWalk.Proofs.Reports.Counting
import GuardedWalk.Proofs.Reports.Visiting
import GuardedWalk.Proofs.World.Installing

/-!
# A policy that keeps its reports

A policy that writes reports keeps them in a list of its own, and each of them is a dictionary that
nobody else writes to. Guards come to nodes and go again meanwhile. As long as the attributes of the
policy and of the guards stay, and the marks of the nodes belong together, the policy can go on
writing reports about the nodes, and the reports that it has written can be summed up.

## Main definitions

* `GuardedWalk.World.Exempts` — a policy, the guards and the marks of some nodes are left alone.
* `GuardedWalk.World.Bypasses` — the reports of the policy are left alone as well.
* `GuardedWalk.World.Keeping` — a policy can write reports about some nodes.
* `GuardedWalk.World.Reporting` — it has written reports of some attempts.

## Main results

* `GuardedWalk.World.Reporting.withReport` — one more report is written.
* `GuardedWalk.World.Reporting.install`, `uninstall` — guards come and go.
* `GuardedWalk.World.Reporting.statistics_runs` — the reports are summed up.
-/

set_option autoImplicit false

namespace GuardedWalk

variable {ε κ : Type}

namespace World

variable {w w' : World ε} {p : Ref .policy} {N : Ref .node → Prop} {as : List Attempt}

/-! ## What is left alone -/

/-- A guard is there and asks a policy about visitors. -/
structure Answerable (w : World ε) (g : Ref .guard) : Prop where
  stored : g.index < w.guards.cells.size
  quiet : ∀ r, w.ownValue (.guard g) Guard.quietField ≠ .node r
  policy : ∃ q, w.ownValue (.guard g) Guard.policyField = .policy q

/-- A policy and the guards that are there keep their attributes, and some nodes their marks. -/
structure Exempts (p : Ref .policy) (N : Ref .node → Prop) (w w' : World ε) : Prop
    extends Frame (fun v => v = .policy p ∨ ∃ g : Ref .guard, v = .guard g ∧
      g.index < w.guards.cells.size) w w' where
  body : (w'.policies.get p).body = (w.policies.get p).body
  guardsSize : w.guards.cells.size ≤ w'.guards.cells.size
  listsSize : w.lists.cells.size ≤ w'.lists.cells.size
  dictionariesSize : w.dictionaries.cells.size ≤ w'.dictionaries.cells.size
  marks : ∀ r, N r → ∀ name ∈ Node.marks,
    (w'.carried (.node r)).get? name = (w.carried (.node r)).get? name

/-- What may happen beside visits: the policy keeps its reports as well. -/
structure Bypasses (p : Ref .policy) (N : Ref .node → Prop) (w w' : World ε) : Prop
    extends Exempts p N w w' where
  reports : w'.reports p = w.reports p
  told : ∀ d, .dictionary d ∈ w.reports p → w'.dictionaries.get d = w.dictionaries.get d

/-! ## What is kept -/

/-- A policy can write reports, the marks of some nodes belong together, and the guards that answer
for these nodes ask policies. -/
structure Keeping (p : Ref .policy) (N : Ref .node → Prop) (w : World ε) : Prop where
  body : (w.policies.get p).body = .record
  unhidden : w.Unhidden (.policy p)
  files : w.Files (fun _ => False) p
  listed : ∀ l, w.ownValue (.policy p) Policy.reportsField = .list l →
    l.index < w.lists.cells.size
  known : ∀ r, N r → (w.own? (.node r)).isSome ∧ ∃ own, w.Marked r own
  answers : ∀ r, N r → ∀ g, w.tag? (.node r) = some (.guard g) → w.Answerable g

/-- The reports of a policy are dictionaries, one for each of some attempts, in order. -/
def Written (w : World ε) (p : Ref .policy) (as : List Attempt) : Prop :=
  ∃ ds : List (Ref .dictionary), w.reports p = ds.map .dictionary ∧
    (∀ d ∈ ds, d.index < w.dictionaries.cells.size) ∧
    ds.map w.dictionaries.get = as.map Reports.report

/-- A policy that can write reports has written those of some attempts. -/
structure Reporting (p : Ref .policy) (N : Ref .node → Prop) (as : List Attempt) (w : World ε) :
    Prop extends Keeping p N w where
  written : w.Written p as

/-- The marks of a node belong together as long as they stay. -/
theorem Marked.of_marks {V : Value → Prop} {r : Ref .node} {own : Option (Ref .node)}
    (h : Marked w r own) (hf : Frame V w w')
    (hm : ∀ name ∈ Node.marks,
      (w'.carried (.node r)).get? name = (w.carried (.node r)).get? name) : Marked w' r own where
  usual ho := (understands_frame hf r _).trans (h.usual ho)
  marks := by
    rw [hm _ Node.acceptField_mem_marks, hm _ Node.guardField_mem_marks]
    refine h.marks.imp id ?_
    rintro ⟨x, g, inner, accept, tag, hx, content, hides, unhidden⟩
    exact ⟨x, g, inner, accept, tag, Nat.lt_of_lt_of_le hx hf.wrappers.1,
      (hf.wrappers.2 x hx).trans content, hides.frame hf, hf.guards g unhidden⟩

theorem Answerable.exempts {g : Ref .guard} (h : w.Answerable g) (hs : Exempts p N w w') :
    w'.Answerable g where
  stored := Nat.lt_of_lt_of_le h.stored hs.guardsSize
  quiet := by
    rw [hs.ownValue (.inr ⟨g, rfl, h.stored⟩) (by decide)]
    exact h.quiet
  policy := by
    rw [hs.ownValue (.inr ⟨g, rfl, h.stored⟩) (by decide)]
    exact h.policy

theorem Keeping.exempts (h : Keeping p N w) (hs : Exempts p N w w') : Keeping p N w' where
  body := hs.body.trans h.body
  unhidden := hs.unhidden (.inl rfl) h.unhidden
  files := h.files.frame hs.toFrame (.inl rfl)
  listed l hl := by
    rw [hs.ownValue (.inl rfl) (by decide)] at hl
    exact Nat.lt_of_lt_of_le (h.listed l hl) hs.listsSize
  known r hr := by
    obtain ⟨ho, own, hm⟩ := h.known r hr
    exact ⟨(own?_isSome_frame hs.toFrame _).trans ho, own, hm.of_marks hs.toFrame (hs.marks r hr)⟩
  answers r hr g hg :=
    (h.answers r hr g ((hs.marks r hr _ Node.guardField_mem_marks).symm.trans hg)).exempts hs

theorem Reporting.bypasses (h : Reporting p N as w) (hb : Bypasses p N w w') :
    Reporting p N as w' where
  toKeeping := h.toKeeping.exempts hb.toExempts
  written := by
    obtain ⟨ds, hds, hstored, hread⟩ := h.written
    refine ⟨ds, hb.reports.trans hds, fun d hd => ?_, hread ▸ ?_⟩
    · exact Nat.lt_of_lt_of_le (hstored d hd) hb.dictionariesSize
    · exact List.map_congr_left fun d hd => hb.told d (hds ▸ List.mem_map_of_mem hd)

/-! ## One thing at a time -/

/-- What is done beside a walk exempts guards and policies. -/
theorem Beside.exempts {E : Ref .list → Prop} (h : Beside E w w')
    (hguards : w.guards.cells.size ≤ w'.guards.cells.size)
    (hlists : w.lists.cells.size ≤ w'.lists.cells.size)
    (hdictionaries : w.dictionaries.cells.size ≤ w'.dictionaries.cells.size) :
    Exempts p N w w' where
  toFrame := h.toFrame.mono fun _ _ => trivial
  body := h.policies p
  guardsSize := hguards
  listsSize := hlists
  dictionariesSize := hdictionaries
  marks r _ _ _ := by rw [carried_of_nodes h.sameNodes r]

theorem Logs.bypasses (h : w.Logs w') : Bypasses p N w w' := by
  obtain ⟨j, rfl⟩ := h
  exact ⟨(beside_journal (fun _ => False) w j).exempts (Nat.le_refl _) (Nat.le_refl _)
    (Nat.le_refl _), rfl, fun _ _ => rfl⟩

/-- Adding lists and dictionaries is no matter for reports. -/
theorem Reporting.extends (h : Reporting p N as w) (he : Reports.Extends w w') :
    Bypasses p N w w' := by
  obtain ⟨ls, ds, rfl, hls, hds⟩ := he
  have hbeside : Beside (fun l => l.index < w.lists.cells.size) w
      { w with lists := ls, dictionaries := ds } := beside_contents hls.2 (.refl _ _)
  obtain ⟨es, hes, hstored, -⟩ := h.written
  obtain ⟨l, hl, -⟩ := h.files.reports
  refine ⟨hbeside.exempts (Nat.le_refl _) hls.1 hds.1, ?_, fun d hd => hds.2 d ?_⟩
  · have hown : World.ownValue { w with lists := ls, dictionaries := ds } (.policy p)
        Policy.reportsField = .list l := hl
    simp only [reports, hown, hl, items]
    exact congrArg Array.toList (hls.2 l (h.listed l hl))
  · rw [hes] at hd
    obtain ⟨d', hd', heq⟩ := List.mem_map.1 hd
    exact Value.dictionary.inj heq ▸ hstored d' hd'

/-- A report that is written is no matter for guards. -/
theorem exempts_withReport (w : World ε) (l : Ref .list) (d : Dictionary) (j : List LogRecord) :
    Exempts p N w (w.withReport l d j) :=
  (beside_withReport (E := fun _ => False) (fun h => h) d j).exempts (Nat.le_refl _)
    (Store.size_modify ..) (Store.grows_add id ..).1

/-- A report that another policy writes in a list of its own is no matter for the reports. -/
theorem Reporting.bypasses_withReport (h : Reporting p N as w) {l : Ref .list}
    (hl : w.ownValue (.policy p) Policy.reportsField ≠ .list l) (d : Dictionary)
    (j : List LogRecord) : Bypasses p N w (w.withReport l d j) where
  toExempts := exempts_withReport w l d j
  reports := by rw [reports_withReport, if_neg hl]
  told e he := by
    obtain ⟨ds, hds, hstored, -⟩ := h.written
    rw [hds] at he
    obtain ⟨e', he', heq⟩ := List.mem_map.1 he
    have hlt : e.index < w.dictionaries.cells.size := Value.dictionary.inj heq ▸ hstored e' he'
    exact (Store.grows_add id w.dictionaries d).2 e hlt

/-- One more report is written. -/
theorem Reporting.withReport (h : Reporting p N as w) {l : Ref .list}
    (hl : w.ownValue (.policy p) Policy.reportsField = .list l) (a : Attempt)
    (j : List LogRecord) :
    Reporting p N (as ++ [a]) (w.withReport l (Reports.report a) j) where
  toKeeping := h.toKeeping.exempts (exempts_withReport w l _ j)
  written := by
    obtain ⟨ds, hds, hstored, hread⟩ := h.written
    have hgrows := Store.grows_add id w.dictionaries (Reports.report a)
    refine ⟨ds ++ [w.dictionaries.next], ?_, fun d hd => ?_, ?_⟩
    · rw [reports_withReport, if_pos hl, hds, List.map_append]
      rfl
    · rcases List.mem_append.1 hd with hd | hd
      · exact Nat.lt_of_lt_of_le (hstored d hd) hgrows.1
      · exact List.mem_singleton.1 hd ▸ Store.next_lt_add ..
    · rw [List.map_append, List.map_append, ← hread]
      refine congrArg₂ _ (List.map_congr_left fun d hd => hgrows.2 d (hstored d hd)) ?_
      exact congrArg (fun d => [d]) (Store.get_add_next ..)

/-- What putting a guard on a node leaves alone. -/
theorem install_node_eq (obstruct : Obstruction ε) {r : Ref .node} (hr : w.Open (.node r))
    (g : Ref .guard) : ∃ ns ms ws j, (World.install obstruct w g (.node r)).2 =
      { w with nodes := ns, methods := ms, wrappers := ws, journal := j } := by
  rcases install_cases obstruct hr g with ⟨hrun, -⟩ | ⟨m, b, w', hm, hc, hrun, -, -, hnode⟩
  · exact ⟨w.nodes, w.methods, w.wrappers, w.journal, by rw [hrun]⟩
  obtain ⟨ms, hms, hshown⟩ := install_shown obstruct g hm hc
  cases ho : w.own? (.node r) with
  | none =>
    have hnone : World.own? { w with methods := ms } (.node r) = none :=
      (own?_methods w ms _).trans ho
    obtain ⟨j, hj⟩ := World.log_eq { w with methods := ms } .debug .guard
      ("Cannot guard " ++ World.className { w with methods := ms } (.node r))
    refine ⟨w.nodes, ms, w.wrappers, j, ?_⟩
    rw [hshown, installOn, hnone]
    simp only [cannotGuard, say, hj]
  | some a =>
    rw [hrun, hnode r rfl (by simp [ho]), hms]
    split
    · exact ⟨_, ms, w.wrappers, w.journal, rfl⟩
    · exact ⟨_, ms, _, w.journal, rfl⟩

/-- A change of marks is no matter for reports. -/
theorem Still.bypasses (h : Still w w') (hguards : w'.guards = w.guards)
    (hdictionaries : w'.dictionaries = w.dictionaries) : Bypasses p (fun _ => False) w w' where
  toFrame := h.toFrame.mono <| by
    rintro v (rfl | ⟨g, rfl, -⟩) <;> rfl
  body := h.policies p
  guardsSize := by rw [hguards]
  listsSize := by rw [h.lists]
  dictionariesSize := by rw [hdictionaries]
  marks _ hr := hr.elim
  reports := by
    have hmark : Policy.reportsField ∉ Node.marks := by decide
    simp only [reports, h.toFrame.ownValue (v := .policy p) rfl hmark, items, h.lists]
  told _ _ := by rw [hdictionaries]

/-- Marks may change as long as they belong together and say that guards answer which ask
policies. -/
theorem Reporting.remarked (h : Reporting p N as w) (hb : Bypasses p (fun _ => False) w w')
    (hknown : ∀ r, N r → ∃ own, w'.Marked r own)
    (htag : ∀ r, N r → ∀ g, w'.tag? (.node r) = some (.guard g) → w.Answerable g) :
    Reporting p N as w' := by
  have hnone : Reporting p (fun _ => False) as w :=
    { h with known := fun _ hr => hr.elim, answers := fun _ hr => hr.elim }
  exact { hnone.bypasses hb with
    known := fun r hr => ⟨(own?_isSome_frame hb.toFrame _).trans (h.known r hr).1, hknown r hr⟩
    answers := fun r hr g hg => (htag r hr g hg).exempts hb.toExempts }

/-- Putting a guard on a node changes nothing but marks. -/
theorem install_bypasses (obstruct : Obstruction ε) {r : Ref .node} (hr : w.Open (.node r))
    {g : Ref .guard} (hg : w.Unhidden (.guard g)) :
    Bypasses p (fun _ => False) w (World.install obstruct w g (.node r)).2 := by
  obtain ⟨b, w', hrun, hstill, -⟩ := install_run obstruct hr hg
  obtain ⟨ns, ms, ws, j, heq⟩ := install_node_eq obstruct hr g
  refine Still.bypasses ?_ (by rw [heq]) (by rw [heq])
  rw [hrun]
  exact hstill

/-- Guards that are put on nodes later answer for them as the others do. -/
theorem Reporting.install (h : Reporting p N as w) (obstruct : Obstruction ε) {r : Ref .node}
    (hr : w.Open (.node r)) {g : Ref .guard} (hg : w.Unhidden (.guard g)) (ha : w.Answerable g) :
    Reporting p N as (World.install obstruct w g (.node r)).2 := by
  obtain ⟨b, w', hrun, -, hmarks⟩ := install_run obstruct hr hg
  refine h.remarked (install_bypasses obstruct hr hg) (fun n hn => ?_) fun n hn g' hg' => ?_
  · obtain ⟨-, own, hm⟩ := h.known n hn
    rw [hrun]
    exact ⟨own, (hmarks n own hm).1⟩
  · obtain ⟨ho, own, hm⟩ := h.known n hn
    rw [install_tag obstruct hr hg hm ho] at hg'
    split at hg'
    · obtain rfl : g = g' := by simpa using hg'
      exact ha
    · exact h.answers n hn g' hg'

/-- Where the guard has been taken off a node, none answers for it. -/
theorem Reporting.uninstall (h : Reporting p N as w) {r : Ref .node}
    (hr : w.understands (.node r) .accept = true) :
    Reporting p N as (w.uninstall (.node r)).2 := by
  by_cases hguarded : w.isGuarded (.node r) = true
  case neg =>
    rw [World.uninstall, if_neg hguarded]
    exact h
  have hstill := (uninstall_run w (.node r)).1
  have hothers : ∀ n, n ≠ r → (w.uninstall (.node r)).2.carried (.node n) = w.carried (.node n) :=
    fun n hne => carried_uninstall_of_ne fun heq => hne (Value.node.inj heq)
  have hbare : ∀ name ∈ Node.marks,
      ((w.uninstall (.node r)).2.carried (.node r)).get? name = Option.none := fun name hname => by
    rw [get?_carried_uninstall hguarded, if_pos hname]
  refine h.remarked (hstill.bypasses ?_ ?_) (fun n hn => ?_) fun n hn g hg => ?_
  · rw [World.uninstall, if_pos hguarded]
    rfl
  · rw [World.uninstall, if_pos hguarded]
    rfl
  · obtain ⟨-, own, hm⟩ := h.known n hn
    by_cases hne : n = r
    · subst hne
      exact ⟨Option.none, fun _ => (understands_frame hstill.toFrame n _).trans hr,
        .inl ⟨hbare _ Node.acceptField_mem_marks, hbare _ Node.guardField_mem_marks⟩⟩
    · exact ⟨own, hm.frame hstill.toFrame (hothers n hne)⟩
  · by_cases hne : n = r
    · subst hne
      cases (hbare _ Node.guardField_mem_marks).symm.trans hg
    · refine h.answers n hn g ?_
      rw [← hg]
      exact congrArg (Attributes.get? · Node.guardField) (hothers n hne).symm

/-- What is known about a guarded node. -/
theorem Keeping.meets (h : Keeping p N w) {r : Ref .node} (hr : N r)
    (hguarded : w.isGuarded (.node r) = true) :
    ∃ g q inner, w.tag? (.node r) = some (.guard g) ∧ w.GuardedBy (.node r) g inner ∧
      w.Unhidden (.guard g) ∧ w.Answerable g ∧
      w.ownValue (.guard g) Guard.policyField = .policy q := by
  obtain ⟨-, own, hm⟩ := h.known r hr
  obtain ⟨-, hnone⟩ | ⟨x, g, inner, haccept, htag, -, hcontent, -, hg⟩ := hm.marks
  · exact absurd hguarded (by simp [isGuarded, show w.tag? (.node r) = none from hnone])
  have ha := h.answers r hr g htag
  obtain ⟨q, hq⟩ := ha.policy
  exact ⟨g, q, inner, htag, ⟨⟨x, haccept, hcontent⟩, htag⟩, hg, ha, hq⟩

/-! ## The summary -/

open Surroundings in
/-- **The reports are summed up**, and nothing else happens. -/
theorem Reporting.statistics_runs (h : Reporting p N as w) (F : Foreign ε κ) (t : Thread) :
    ∃ s σ, (alone (Walk.body F t)).Runs (Walk.send (.policy p) .statistics []) (.start w)
        (.ok (.dictionary s)) σ ∧
      Reports.Extends w σ.world ∧ Reports.SumsUp σ.world s (w.reports p) as := by
  obtain ⟨ds, hds, -, hread⟩ := h.written
  obtain ⟨s, w', hrun, hextends, hsums⟩ := Reports.summary_run h.files hds hread
  have hS := calm_alone F t
  let c : Call κ := .send (.policy p) .statistics []
  have h₀ : ((Moment.start w).calling c).Asked w ((Moment.start w).calling c) :=
    ⟨rfl, [], by simp⟩
  have hyields : (alone (Walk.body F t)).Yields (.free ε κ) (.start w)
      (Walk.send (.policy p) .statistics []) fun o σ => o = .ok (.dictionary s) ∧ σ.world = w' := by
    refine .invoke rfl trivial (hS.delivered h₀ ?_ (h.unhidden _ (by simp)) rfl fun σ₁ h₁ => ?_)
    · simp [understands, h.body]
    · exact hS.step h₁ hrun fun σ₂ h₂ => ⟨rfl, h₂.world⟩
  obtain ⟨o, σ, hruns, -, rfl, rfl⟩ := hyields
  exact ⟨s, σ, hruns, hextends, hsums⟩

end World

end GuardedWalk
