import GuardedWalk.Proofs.Walk.Transparency
import GuardedWalk.Proofs.Walk.Unguarding
import GuardedWalk.Proofs.World.Reaching

/-!
# What guards make of the nodes of a document

Guards come to the nodes of a document and are taken off again, and walkers walk over it, in any
order or at the same time. Whatever state this leaves a node in, the node carries what it carried at
first, with the marks of one guard or without any. So a copy, which leaves the marks behind, gets
what the node carried at first.

## Main definitions

* `GuardedWalk.World.Calm` — what is left alone by guards that come and go, and by walks.
* `GuardedWalk.World.Happens` — a guard is put on a value or taken off, or a walker walks.
* `GuardedWalk.World.History` — any number of such things.
* `GuardedWalk.World.Dressed` — the nodes of a document are as before, apart from guards.

## Main results

* `GuardedWalk.World.walk_happens` — a walk is such a history, whatever others do meanwhile.
* `GuardedWalk.World.Graph.dressed` — what is left of the nodes of a document by any guards and
  walks.
* `GuardedWalk.World.Dressed.unguarded` — what a copy of a node gets.
-/

set_option autoImplicit false

namespace GuardedWalk

namespace World

variable {ε κ : Type} {F : Foreign ε κ} {D : Ref .list → Prop} {w₀ w w' w'' : World ε}
  {root : Ref .node}

/-- What guards that come and go leave alone, and walks: all but the marks of nodes, and marks of
nodes that are traversed as their classes say belong together as before. -/
structure Calm (D : Ref .list → Prop) (w w' : World ε) : Prop
    extends Frame (fun _ => False) w w' where
  fields : ∀ n : Ref .node, ∀ name ∉ Node.marks,
    (w'.carried (.node n)).get? name = (w.carried (.node n)).get? name
  lists : ∀ l : Ref .list, D l → w'.items l = w.items l
  marked : ∀ n, w.Marked n none → w'.Marked n none

theorem Calm.refl (D : Ref .list → Prop) (w : World ε) : Calm D w w :=
  ⟨.refl _ w, fun _ _ _ => rfl, fun _ _ => rfl, fun _ h => h⟩

theorem Calm.trans (h : Calm D w w') (h' : Calm D w' w'') : Calm D w w'' where
  toFrame := h.toFrame.trans h'.toFrame
  fields n name hn := (h'.fields n name hn).trans (h.fields n name hn)
  lists l hl := (h'.lists l hl).trans (h.lists l hl)
  marked n hm := h'.marked n (h.marked n hm)

theorem Mild.calm (h : Mild w w') (hm : ∀ n, w.Marked n none → w'.Marked n none) : Calm D w w' where
  toFrame := h.toFrame.mono fun _ hv => hv.elim
  fields n := h.carried (.node n) rfl
  lists l _ := by simp [items, h.lists]
  marked := hm

theorem Peaceful.calm {X : Cast} (h : Peaceful X D w w') : Calm D w w' where
  toFrame := h.toFrame.mono fun _ hv => hv.elim
  fields n name _ := by rw [carried_of_nodes h.sameNodes n]
  lists := h.lists
  marked _ := h.marked

/-- A guard is put on a value or taken off, or a walker walks from the beginning to the end of a
walk, among others who leave nodes alone, or something else happens that leaves nodes alone, such as
a step of a walk. -/
inductive Happens (F : Foreign ε κ) (D : Ref .list → Prop) (w : World ε) : World ε → Prop where
  | install (g : Ref .guard) {v : Value} (opened : w.Open v) (unhidden : w.Unhidden (.guard g)) :
    Happens F D w (World.install F.obstruct w g v).2
  | uninstall (v : Value) : Happens F D w (w.uninstall v).2
  | walk {X : Cast} {e : Event} {args : List Value} {A : Agenda κ}
    {verdict : List (Occasion κ) → Option Failure} {S : Surroundings ε κ} {o : Outcome}
    {σ : Moment ε κ} (ready : X.SetsOut F D e args A w) (attended : X.Attended F D verdict S)
    (runs : S.Runs (Walk.send (.walker X.walker) (.entry e) args) (.start w) o σ) :
    Happens F D w σ.world
  | other {w' : World ε} (calm : Calm D w w') (nodes : w'.nodes = w.nodes) : Happens F D w w'

/-- Any number of such things, one after the other. -/
abbrev History (F : Foreign ε κ) (D : Ref .list → Prop) : World ε → World ε → Prop :=
  Relation.ReflTransGen (Happens F D)

theorem Footstep.happens {k : Ref .token} (h : w.Footstep k w') : Happens F D w w' :=
  .other (h.toMild.calm fun _ => h.marked) h.sameNodes

/-- A walk through a document is a history of such things, if all that others do meanwhile is one:
they may put guards on nodes and take them off again, and they may walk themselves. -/
theorem walk_happens {X : Cast} {d : Document} {bound : Nat}
    {verdict : List Callback → Option Failure} {S : Surroundings ε κ}
    (hS : X.Surrounded F verdict (fun w w' => Meddling X.Intact d w w' ∧ History F D w w') S)
    (hd : d.Fits bound w) (hX : X.Assembled w) (hi : Held w X .idle) {e : Event}
    (he : e.entersNode = true) :
    S.Yields (fun c _ => c.isHandle = false) (.start w)
      (Walk.send (.walker X.walker) (.entry e) [d.value]) fun _ σ => History F D w σ.world := by
  have hfoot w₁ w₂ (hw : w₁.Footstep X.token w₂) (hi : History F D w w₁) : History F D w w₂ :=
    hi.tail hw.happens
  have hZ : (X.through bound d e (History F D w) verdict).Hosts F S :=
    hS.hosts he (fun _ _ hm => hm.1) (fun _ _ hm hi => hi.trans hm.2) hfoot
      fun _ _ hg hv hi => hi.tail (.install X.guard hv.open hg)
  refine (hZ.walk (Cast.lasts_through e verdict hfoot) (Event.ne_announce_of_entersNode he) rfl
    (Cast.going_start ⟨hX, hi, by simp, hd.entered he⟩ ⟨hd, .refl⟩)).mono ?_
  rintro _ σ ⟨hg, -⟩
  exact hg.inv.2

/-- The nodes of a document are as before, apart from guards. -/
structure Dressed (D : Ref .list → Prop) (root : Ref .node) (w₀ w : World ε) : Prop
    extends Calm D w₀ w where
  wears : ∀ r, w₀.Reaches (.node root) (.node r) → w.Wears r (w₀.carried (.node r))

/-! ## Nodes of a document -/

/-- Where there are no marks, they belong together. -/
theorem marked_of_unmarked {r : Ref .node} {c : DocumentClass}
    (hc : (w.nodes.get r).cls = .document c)
    (h : ∀ name ∈ Node.marks, (w.carried (.node r)).get? name = none) : w.Marked r none :=
  marked_none_iff.2 ⟨.bare (h _ Node.acceptField_mem_marks) (h _ Node.guardField_mem_marks),
    by simp [understands, hc]⟩

/-- The marks of a document that has never been guarded belong together. -/
theorem Graph.marked (h : w₀.Graph root) {r : Ref .node}
    (hr : w₀.Reaches (.node root) (.node r)) : w₀.Marked r none := by
  obtain ⟨c, hc⟩ := h.cls hr
  exact marked_of_unmarked hc fun _ => h.unmarked hr

/-- Guards can be put on the nodes of a document. -/
theorem Graph.receptive (h : w₀.Graph root) {r : Ref .node}
    (hr : w₀.Reaches (.node root) (.node r)) : w₀.Receptive r (w₀.carried (.node r)) := by
  obtain ⟨c, hc⟩ := h.cls hr
  have hown : w₀.own? (.node r) = some (w₀.carried (.node r)) := by
    simp [carried, own?, hc, NodeClass.hasAttributes]
  refine ⟨hown, h.unmarked hr Node.guardField_mem_marks, ?_, ?_⟩
  · refine Plain.open fun r' hr' => ?_
    obtain rfl := Value.node.inj hr'
    exact ⟨c, hc⟩
  · exact (h.marked hr).isCallable

namespace Dressed

/-- Whatever leaves all nodes alone leaves those of a document alone. -/
theorem calm (h : Dressed D root w₀ w) (hc : Calm D w w')
    (hown : ∀ r, w'.own? (.node r) = w.own? (.node r)) : Dressed D root w₀ w' :=
  ⟨h.toCalm.trans hc, fun r hr => (h.wears r hr).of_own (hown r)⟩

theorem calm_of_nodes (h : Dressed D root w₀ w) (hc : Calm D w w') (hn : w'.nodes = w.nodes) :
    Dressed D root w₀ w' :=
  h.calm hc (own?_of_nodes hn)

/-- A guard is put on a value. -/
theorem install (h : Dressed D root w₀ w) (h₀ : w₀.Graph root) (obstruct : Obstruction ε)
    {g : Ref .guard} {v : Value} (hv : w.Open v) (hg : w.Unhidden (.guard g)) :
    Dressed D root w₀ (World.install obstruct w g v).2 := by
  obtain ⟨b, w', hrun, hstill, hmarked⟩ := install_run obstruct hv hg
  have hcalm : Calm D w w' := hstill.toMild.calm fun n hn => (hmarked n none hn).1
  rw [hrun]
  refine ⟨h.toCalm.trans hcalm, fun r hr => ?_⟩
  by_cases hvr : v = .node r
  · subst hvr
    obtain ⟨x, hx⟩ := (h.wears r hr).install (h₀.receptive hr) h.toFrame obstruct g
    rw [hrun] at hx
    exact .guarded x g hx
  · have hown := own?_install_of_ne obstruct hv g hvr
    rw [hrun] at hown
    exact (h.wears r hr).of_own hown

/-- The guard is taken off a value. -/
theorem uninstall (h : Dressed D root w₀ w) (h₀ : w₀.Graph root) (v : Value) :
    Dressed D root w₀ (w.uninstall v).2 := by
  obtain ⟨hstill, hcoherent⟩ := w.uninstall_run v
  have hcalm : Calm D w (w.uninstall v).2 := hstill.toMild.calm fun n hn => by
    obtain ⟨hc, hu⟩ := marked_none_iff.1 hn
    exact marked_none_iff.2 ⟨hcoherent n hc, (understands_frame hstill.toFrame n _).trans hu⟩
  refine ⟨h.toCalm.trans hcalm, fun r hr => ?_⟩
  cases ht : w.isGuarded v with
  | false =>
    have hsame : (w.uninstall v).2 = w := by simp [World.uninstall, ht]
    rw [hsame]
    exact h.wears r hr
  | true =>
    by_cases hvr : v = .node r
    · subst hvr
      obtain ⟨w', hrun, -, hown, -⟩ :=
        uninstall_wears (h.wears r hr) (h₀.unmarked hr Node.guardField_mem_marks) ht
      rw [hrun]
      rw [Attributes.erase_eq_self_iff.2 (h₀.unmarked hr Node.acceptField_mem_marks)] at hown
      exact .bare hown
    · have hsame : (w.uninstall v).2.own? (.node r) = w.own? (.node r) := by
        simp only [World.uninstall, ht, if_true]
        exact own?_modifyOwn_of_ne w (fun h => hvr h.symm) _
      exact (h.wears r hr).of_own hsame

/-- A walk goes on, over the document or elsewhere. -/
theorem hosts (h₀ : w₀.Graph root) {X : Cast} {e : Event} {args : List Value} {A : Agenda κ}
    {verdict : List (Occasion κ) → Option Failure} {S : Surroundings ε κ}
    (ready : X.SetsOut F D e args A w) (attended : X.Attended F D verdict S) :
    (X.attended D A (fun w _ => Dressed D root w₀ w) verdict).Hosts F S :=
  attended.hosts ready.coded
    (fun _ _ _ hw hi => hi.calm_of_nodes hw.calm hw.sameNodes)
    (fun _ _ _ _ hi => hi)
    (fun _ _ _ hw hi =>
      hi.calm_of_nodes (hw.toMild.calm fun _ => hw.toFootstep.marked) hw.sameNodes)
    fun _ _ _ _ _ _ hw hv hi => hi.install h₀ F.obstruct hv hw.assembled.guardOpen

/-- Whatever happens to the nodes of a document, they are as before, apart from guards. -/
theorem happens (h : Dressed D root w₀ w) (h₀ : w₀.Graph root) (hw : Happens F D w w') :
    Dressed D root w₀ w' := by
  cases hw with
  | install g opened unhidden => exact h.install h₀ F.obstruct opened unhidden
  | uninstall v => exact h.uninstall h₀ v
  | @walk X e args A verdict S o σ ready attended runs =>
    obtain ⟨source, inner, hwhole⟩ := ready.whole
    obtain ⟨o', σ', hruns, -, hg, -⟩ := (hosts h₀ ready attended).walk
      (fun _ _ _ hw hi => hi.calm_of_nodes (hw.toMild.calm fun _ => hw.marked) hw.sameNodes)
      ready.announces hwhole (ready.going h)
    obtain ⟨-, rfl⟩ := hruns.unique runs
    exact hg.inv
  | other calm nodes => exact h.calm_of_nodes calm nodes

/-- What a copy of a node gets is what the node carried at first. -/
theorem unguarded (h : Dressed D root w₀ w) (h₀ : w₀.Graph root) {r : Ref .node}
    (hr : w₀.Reaches (.node root) (.node r)) :
    (w.nodes.get r).unguarded = w₀.carried (.node r) := by
  obtain ⟨c, hc⟩ := h₀.cls hr
  have hc' : (w.nodes.get r).cls = .document c := (h.nodes r).trans hc
  have htag := h₀.unmarked hr Node.guardField_mem_marks
  have hown : w.own? (.node r) = some (w.nodes.get r).attributes := by
    simp [own?, hc', NodeClass.hasAttributes]
  cases h.wears r hr with
  | bare own =>
    rw [unguarded_of_untagged hc' (by simpa [carried, own] using htag)]
    simp [carried, own]
  | guarded x g own =>
    have hattr : (w.nodes.get r).attributes = (w₀.carried (.node r)).guarded x g :=
      Option.some.inj (hown.symm.trans own)
    have hg : (w.nodes.get r).attributes.get? Node.guardField = some (.guard g) := by
      rw [hattr, Attributes.guarded, Attributes.get?_set, if_pos rfl]
    simp only [Node.unguarded, hc', NodeClass.isDocumentNode, if_true, hg]
    rw [hattr, Attributes.erase_guarded htag,
      Attributes.erase_eq_self_iff.2 (h₀.unmarked hr Node.acceptField_mem_marks)]

end Dressed

/-- **Whatever guards come to the nodes of a document and go, and whoever walks over it**, the nodes
are as before, apart from guards. -/
theorem Graph.dressed (h : w₀.Graph root)
    (history : History F D w₀ w) : Dressed D root w₀ w := by
  induction history with
  | refl =>
    refine ⟨.refl D w₀, fun r hr => .bare (h.receptive hr).own⟩
  | tail _ hw ih => exact ih.happens h hw

end World

end GuardedWalk
