import GuardedWalk.Proofs.World.Guarding
import GuardedWalk.Reports

/-!
# Nodes that policies answer for

A guard that turns visitors away asks its policy for an answer. Most policies either refuse or write
a report, and nothing comes in the way of that as long as guards and policies are as they were made
and each policy keeps its reports in a list of its own. Here it is said when all guarded nodes that
somebody knows are in such a state, and what may happen meanwhile.

## Main definitions

* `GuardedWalk.World.reports` — the reports of a policy.
* `GuardedWalk.World.Polices` — a guard has its policy refuse or report.
* `GuardedWalk.World.Policed` — such guards answer for all guarded nodes that somebody knows.
* `GuardedWalk.World.Beside` — what is done beside a walk.
* `GuardedWalk.World.Retains` — what stays known in a walk.

## Main results

* `GuardedWalk.World.install_tag` — which guard answers for a node after one has been put on a
  value.
* `GuardedWalk.World.Policed.install` — guards that are put on nodes later answer as well.
-/

set_option autoImplicit false

namespace GuardedWalk

namespace World

variable {ε : Type} {w w₁ w' : World ε} {V : Value → Prop}

/-- The reports of a policy. -/
def reports (w : World ε) (p : Ref .policy) : List Value :=
  match w.ownValue (.policy p) Policy.reportsField with
  | .list l => w.items l
  | _ => []

/-- Whatever is no node is true or false. -/
theorem isTrue_of_no_node {v : Value} (hv : ∀ r, v ≠ .node r) : ∃ b, w.isTrue v = .ok b := by
  cases v
  case node r => exact absurd rfl (hv r)
  all_goals exact ⟨_, rfl⟩

theorem Frame.ownValue (hf : Frame V w w') {v : Value} (hv : V v) {name : String}
    (hn : name ∉ Node.marks) : w'.ownValue v name = w.ownValue v name := by
  rw [ownValue_eq, ownValue_eq, Attributes.value, Attributes.value, hf.carried v hv name hn]

theorem Frame.unhidden (hf : Frame V w w') {v : Value} (hv : V v) (hu : w.Unhidden v) :
    w'.Unhidden v := unhidden_of_carried (hf.carried v hv) hu

/-! ## Guards and their policies -/

/-- A policy that writes reports can do so, in a list that is none of some others. -/
structure Files (E : Ref .list → Prop) (w : World ε) (p : Ref .policy) : Prop where
  reports : ∃ l : Ref .list, w.ownValue (.policy p) Policy.reportsField = .list l ∧ ¬ E l
  lock : ∃ k, w.ownValue (.policy p) Policy.lockField = .lock k
  verbose : ∀ r, w.ownValue (.policy p) Policy.verboseField ≠ .node r

/-- A guard has a policy of a kind answer, and nothing stands in the way of either. -/
structure Polices (m : PolicyBody) (E : Ref .list → Prop) (w : World ε) (g : Ref .guard) :
    Prop where
  unhidden : w.Unhidden (.guard g)
  quiet : ∀ r, w.ownValue (.guard g) Guard.quietField ≠ .node r
  policy : ∃ p : Ref .policy, w.ownValue (.guard g) Guard.policyField = .policy p ∧
    w.Unhidden (.policy p) ∧ (w.policies.get p).body = m ∧ (m = .record → w.Files E p)

/-- All guarded nodes that somebody knows are answered for by policies of a kind, and each policy
keeps its reports in a list of its own. -/
structure Policed (m : PolicyBody) (E : Ref .list → Prop) (N : Ref .node → Prop) (w : World ε) :
    Prop where
  apart : ∀ (p p' : Ref .policy) (l : Ref .list),
    w.ownValue (.policy p) Policy.reportsField = .list l →
    w.ownValue (.policy p') Policy.reportsField = .list l → p' = p
  known : ∀ r, N r → (w.own? (.node r)).isSome ∧ ∃ own, w.Marked r own
  answers : ∀ r, N r → ∀ g, w.tag? (.node r) = some (.guard g) → w.Polices m E g

variable {m : PolicyBody} {E : Ref .list → Prop} {N : Ref .node → Prop}

theorem Files.frame {p : Ref .policy} (h : w.Files E p) (hf : Frame V w w')
    (hp : V (.policy p)) : w'.Files E p where
  reports := by
    rw [hf.ownValue hp (by decide)]
    exact h.reports
  lock := by
    rw [hf.ownValue hp (by decide)]
    exact h.lock
  verbose := by
    rw [hf.ownValue hp (by decide)]
    exact h.verbose

/-- Guards and policies go on answering as they do. -/
theorem Polices.frame {g : Ref .guard} (h : w.Polices m E g) (hf : Frame V w w')
    (hV : ∀ v : Value, v.isSteady = true → V v)
    (hb : ∀ p, (w'.policies.get p).body = (w.policies.get p).body) : w'.Polices m E g where
  unhidden := hf.guards g h.unhidden
  quiet := by
    rw [hf.ownValue (hV _ rfl) (by decide)]
    exact h.quiet
  policy := by
    obtain ⟨p, hp, hopen, hbody, hfiles⟩ := h.policy
    exact ⟨p, (hf.ownValue (hV _ rfl) (by decide)).trans hp, hf.unhidden (hV _ rfl) hopen,
      (hb p).trans hbody, fun hm => (hfiles hm).frame hf (hV _ rfl)⟩

theorem Policed.frame (h : w.Policed m E N) (hf : Frame V w w')
    (hV : ∀ v : Value, v.isSteady = true → V v)
    (hb : ∀ p, (w'.policies.get p).body = (w.policies.get p).body) (hn : w'.nodes = w.nodes) :
    w'.Policed m E N where
  apart p p' l hp hp' := by
    rw [hf.ownValue (hV _ rfl) (by decide)] at hp hp'
    exact h.apart p p' l hp hp'
  known r hr := by
    obtain ⟨ho, own, hm⟩ := h.known r hr
    exact ⟨(own?_isSome_frame hf _).trans ho, own, hm.frame hf (carried_of_nodes hn r)⟩
  answers r hr g hg := by
    have htag : w.tag? (.node r) = some (.guard g) := by
      rw [← hg]
      simp only [tag?, own?, hn]
    exact (h.answers r hr g htag).frame hf hV hb

/-! ## What happens meanwhile -/

/-- What is done beside a walk: objects are added, and lists are changed that are none of some
others. -/
structure Beside (E : Ref .list → Prop) (w w' : World ε) : Prop
    extends Frame (fun _ => True) w w' where
  sameNodes : w'.nodes = w.nodes
  sameSessions : w'.sessions = w.sessions
  observers : ∀ o, (w'.observers.get o).cls = (w.observers.get o).cls
  policies : ∀ p, (w'.policies.get p).body = (w.policies.get p).body
  lists : ∀ l, E l → w'.lists.get l = w.lists.get l

theorem Beside.refl (E : Ref .list → Prop) (w : World ε) : Beside E w w :=
  ⟨.refl _ w, rfl, rfl, fun _ => rfl, fun _ => rfl, fun _ _ => rfl⟩

theorem Beside.trans (h : Beside E w w₁) (h' : Beside E w₁ w') : Beside E w w' where
  toFrame := h.toFrame.trans h'.toFrame
  sameNodes := h'.sameNodes.trans h.sameNodes
  sameSessions := h'.sameSessions.trans h.sameSessions
  observers o := (h'.observers o).trans (h.observers o)
  policies p := (h'.policies p).trans (h.policies p)
  lists l hl := (h'.lists l hl).trans (h.lists l hl)

theorem beside_contents {ls : Store .list (Array Value)} {ts : Store .tuple (Array Value)}
    {ds : Store .dictionary Dictionary} {j : List LogRecord} {x : ε}
    (hls : ∀ l, E l → ls.get l = w.lists.get l) (hts : w.tuples.Grows id ts) :
    Beside E w { w with
      lists := ls, tuples := ts, dictionaries := ds, journal := j, foreign := x } where
  toFrame := frame_contents _ hts
  sameNodes := rfl
  sameSessions := rfl
  observers _ := rfl
  policies _ := rfl
  lists := hls

theorem beside_journal (E : Ref .list → Prop) (w : World ε) (j : List LogRecord) :
    Beside E w { w with journal := j } := beside_contents (fun _ _ => rfl) (.refl _ _)

/-- What foreign code remembers is its own business. -/
theorem beside_foreign (E : Ref .list → Prop) (w : World ε) (x : ε) :
    Beside E w { w with foreign := x } := beside_contents (fun _ _ => rfl) (.refl _ _)

theorem Beside.policed {E' : Ref .list → Prop} (h : Beside E' w w') (hp : w.Policed m E N) :
    w'.Policed m E N :=
  hp.frame h.toFrame (fun _ _ => trivial) h.policies h.sameNodes

/-- What stays known in a walk to somebody who knows some nodes: attributes of values, the state of
foreign code, and that nodes are guarded. -/
structure Retains (N : Ref .node → Prop) (w w' : World ε) : Prop
    extends Frame (fun v => v.isSteady = true) w w' where
  foreign : w'.foreign = w.foreign
  guarded : ∀ r, N r → w.isGuarded (.node r) = true → w'.isGuarded (.node r) = true

theorem isGuarded_of_nodes (h : w'.nodes = w.nodes) (r : Ref .node) :
    w'.isGuarded (.node r) = w.isGuarded (.node r) := by
  simp only [isGuarded, tag?, own?, h]

theorem Mild.retains (h : Mild w w') (hn : w'.nodes = w.nodes) : Retains N w w' :=
  ⟨h.toFrame, h.foreign, fun r _ hr => (isGuarded_of_nodes hn r).trans hr⟩

theorem Beside.retains (h : Beside E w w') (hx : w'.foreign = w.foreign) : Retains N w w' :=
  ⟨h.toFrame.mono fun _ _ => trivial, hx,
    fun r _ hr => (isGuarded_of_nodes h.sameNodes r).trans hr⟩

/-! ## Further guards -/

/-- The guard that answers for a node after one has been put on a value. -/
theorem install_tag (obstruct : Obstruction ε) {v : Value} (hv : w.Open v) {g : Ref .guard}
    (hg : w.Unhidden (.guard g)) {r : Ref .node} {own : Option (Ref .node)}
    (hr : w.Marked r own) (ho : (w.own? (.node r)).isSome) :
    (install obstruct w g v).2.tag? (.node r) =
      if v = .node r then some (.guard g) else w.tag? (.node r) := by
  split
  · rename_i hvr
    obtain ⟨b, w', hrun, -, hmarks⟩ := install_run obstruct hv hg
    rw [hrun, ← hvr]
    exact (hmarks r own hr).2 hvr (hvr ▸ ho)
  · rename_i hvr
    rcases install_cases obstruct hv g with ⟨hrun, -⟩ | ⟨m, b, w', -, -, hrun, -, hothers, -⟩
    · rw [hrun]
    · rw [hrun]
      show (w'.carried (.node r)).get? Node.guardField = _
      rw [hothers r (.inl hvr)]
      rfl

/-- A guard that is put on a value answers as the others do. -/
theorem Policed.install (h : w.Policed m E N) (obstruct : Obstruction ε) {v : Value}
    (hv : w.Open v) {g : Ref .guard} (hg : w.Polices m E g) :
    (World.install obstruct w g v).2.Policed m E N := by
  have htag : ∀ r, N r → (World.install obstruct w g v).2.tag? (.node r) =
      if v = .node r then some (.guard g) else w.tag? (.node r) := by
    intro r hr
    obtain ⟨ho, own, hm⟩ := h.known r hr
    exact install_tag obstruct hv hg.unhidden hm ho
  obtain ⟨b, w', hrun, hstill, hmarks⟩ := install_run obstruct hv hg.unhidden
  rw [hrun] at htag ⊢
  refine ⟨fun p p' l hp hp' => ?_, fun r hr => ?_, fun r hr g' hg' => ?_⟩
  · rw [hstill.toFrame.ownValue rfl (by decide)] at hp hp'
    exact h.apart p p' l hp hp'
  · obtain ⟨ho, own, hm⟩ := h.known r hr
    exact ⟨(own?_isSome_frame hstill.toFrame _).trans ho, own, (hmarks r own hm).1⟩
  · have hpolices : w.Polices m E g' := by
      rw [htag r hr] at hg'
      split at hg'
      · obtain rfl : g = g' := by simpa using hg'
        exact hg
      · exact h.answers r hr g' hg'
    exact hpolices.frame hstill.toFrame (fun _ hs => hs) hstill.policies

theorem Policed.retains_install (h : w.Policed m E N) (obstruct : Obstruction ε) {v : Value}
    (hv : w.Open v) {g : Ref .guard} (hg : w.Unhidden (.guard g)) :
    Retains N w (World.install obstruct w g v).2 := by
  have hguarded : ∀ r, N r → w.isGuarded (.node r) = true →
      (World.install obstruct w g v).2.isGuarded (.node r) = true := by
    intro r hr hguard
    obtain ⟨ho, own, hm⟩ := h.known r hr
    rw [isGuarded, install_tag obstruct hv hg hm ho]
    split
    · rfl
    · exact hguard
  obtain ⟨b, w', hrun, hstill, -⟩ := install_run obstruct hv hg
  rw [hrun] at hguarded ⊢
  exact ⟨hstill.toFrame, hstill.foreign, hguarded⟩

/-- A node that somebody knows is guarded after a guard has been put on it. -/
theorem Policed.guarded_install (h : w.Policed m E N) (obstruct : Obstruction ε) {r : Ref .node}
    (hr : N r) (hv : w.Open (.node r)) {g : Ref .guard} (hg : w.Unhidden (.guard g)) :
    (World.install obstruct w g (.node r)).2.isGuarded (.node r) = true := by
  obtain ⟨ho, own, hm⟩ := h.known r hr
  rw [isGuarded, install_tag obstruct hv hg hm ho, if_pos rfl]
  rfl

end World

end GuardedWalk
