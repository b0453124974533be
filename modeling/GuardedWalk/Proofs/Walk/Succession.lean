import GuardedWalk.Proofs.Walk.Entitlement
import GuardedWalk.Proofs.Walk.Unguarding

/-!
# Guards that follow one another

Guards come to a node one after the other, and now and then the guard is taken off. However often
this happens, there is never more than one wrapper on the node: the first guard makes it, those that
follow only take over, and it goes when the guard is taken off. The guard that has come last answers
for the node.

## Main definitions

* `GuardedWalk.Change` — a guard is put on a node, or the guard is taken off.
* `GuardedWalk.Change.since` — the guards that have come since the guard was last taken off.
* `GuardedWalk.World.Undergoes` — what a node undergoes, among other things that happen.
* `GuardedWalk.World.Reign` — guards have come to a bare node and none has been taken off.

## Main results

* `GuardedWalk.World.Undergoes.carries` — what changes make of the attributes of a node.
* `GuardedWalk.World.Reign.hides` — one wrapper lasts from the first guard to the end.
* `GuardedWalk.World.Undergoes.last_guard_answers` — who answers for a node after any changes.
-/

set_option autoImplicit false

namespace GuardedWalk

variable {ε κ : Type}

/-! ## Changes -/

/-- What is done to a node: a guard is put on it, or the guard is taken off. -/
inductive Change where
  | install (g : Ref .guard)
  | uninstall

namespace Change

/-- The guards that have come since the guard was last taken off, after one more change. -/
def followed (gs : List (Ref .guard)) : Change → List (Ref .guard)
  | install g => gs ++ [g]
  | uninstall => []

/-- The guards that have come since the guard was last taken off, in the order in which they
came. -/
def since (cs : List Change) : List (Ref .guard) := cs.foldl followed []

@[simp] theorem since_nil : since [] = [] := rfl

@[simp] theorem since_append_install (cs : List Change) (g : Ref .guard) :
    since (cs ++ [install g]) = since cs ++ [g] := by
  simp [since, followed]

@[simp] theorem since_append_uninstall (cs : List Change) : since (cs ++ [uninstall]) = [] := by
  simp [since, followed]

/-- The world after a change. -/
def run (obstruct : Obstruction ε) (r : Ref .node) (w : World ε) : Change → World ε
  | install g => (World.install obstruct w g (.node r)).2
  | uninstall => (w.uninstall (.node r)).2

end Change

namespace World

variable {obstruct : Obstruction ε} {r : Ref .node} {w₀ u w w' : World ε} {a b : Attributes}
  {cs before later : List Change} {g g' : Ref .guard}

/-- What happens aside from a node: the node is as before, and so is what wrappers were made for. -/
structure Elsewhere (r : Ref .node) (w w' : World ε) : Prop where
  node : w'.nodes.get r = w.nodes.get r
  wrappers : w.wrappers.Grows Wrapper.content w'.wrappers

/-- A node undergoes changes; in between anything may happen elsewhere. -/
inductive Undergoes (obstruct : Obstruction ε) (r : Ref .node) (w : World ε) :
    List Change → World ε → Prop where
  | start : Undergoes obstruct r w [] w
  | change {cs : List Change} {w₁ : World ε} (past : Undergoes obstruct r w cs w₁) (c : Change) :
    Undergoes obstruct r w (cs ++ [c]) (c.run obstruct r w₁)
  | meanwhile {cs : List Change} {w₁ w₂ : World ε} (past : Undergoes obstruct r w cs w₁)
    (aside : Elsewhere r w₁ w₂) : Undergoes obstruct r w cs w₂

/-- Guards reign over a node that was bare when the first one came: none has been taken off
since. -/
structure Reign (obstruct : Obstruction ε) (r : Ref .node) (w₀ : World ε) (before : List Change)
    (u : World ε) (g : Ref .guard) (later : List Change) (w : World ε) : Prop where
  vacant : Change.since before = []
  lasting : Change.uninstall ∉ later
  past : Undergoes obstruct r w₀ before u
  course : Undergoes obstruct r ((Change.install g).run obstruct r u) later w

/-- **Either no guard has come since the guard was last taken off, or guards reign.** -/
theorem Undergoes.reign (h : Undergoes obstruct r w₀ cs w) :
    Change.since cs = [] ∨
      ∃ before u g later, cs = before ++ .install g :: later ∧
        Reign obstruct r w₀ before u g later w := by
  induction h with
  | start => exact .inl rfl
  | @change cs w₁ past c ih =>
    cases c with
    | uninstall => exact .inl (by simp)
    | install g =>
      refine .inr ?_
      rcases ih with hnone | ⟨before, u, g₁, later, rfl, hreign⟩
      · exact ⟨cs, w₁, g, [], rfl, hnone, by simp, past, .start⟩
      · exact ⟨before, u, g₁, later ++ [.install g], by simp, hreign.vacant,
          by simpa using hreign.lasting, hreign.past, hreign.course.change _⟩
  | meanwhile past aside ih =>
    refine ih.imp id ?_
    rintro ⟨before, u, g, later, hcs, hreign⟩
    exact ⟨before, u, g, later, hcs, { hreign with course := hreign.course.meanwhile aside }⟩

/-! ## What a node carries -/

/-- What a first guard makes of a node: the wrapper is new and hides what the node showed. -/
theorem Receptive.install (h : Receptive w r a) (obstruct : Obstruction ε) (g : Ref .guard) :
    (World.install obstruct w g (.node r)).2.own? (.node r) = some (a.guarded w.wrappers.next g) ∧
      w.wrappers.next.index < (World.install obstruct w g (.node r)).2.wrappers.cells.size ∧
      ∀ m, w.member (.node r) Node.acceptField = .ok m →
        ((World.install obstruct w g (.node r)).2.wrappers.get w.wrappers.next).content =
          (.node r, (w.reveal (.node r) m).1) := by
  obtain ⟨m, hm, hc⟩ := h.callable
  have hbare : a.has Node.guardField = false := by simp [Attributes.has, h.untagged]
  have hown := install_own obstruct h.assignable hm hc h.own g
  rw [hbare] at hown
  rcases install_cases obstruct h.assignable g with
    ⟨-, hm'⟩ | ⟨m', b, w', hm', -, hrun, -, -, hnode⟩
  · simp [hm' m hm] at hc
  obtain rfl : m' = m := by simpa using hm'.symm.trans hm
  have hw := hnode r rfl (by simp [h.own])
  simp only [carried, h.own, Option.getD_some, hbare, Bool.false_eq_true, if_false] at hw
  have hstored : ∃ x : Wrapper, x.content = (.node r, (w.reveal (.node r) m').1) ∧
      w'.wrappers = w.wrappers.add x := by
    rw [hw, ← wrappers_reveal (w := w) (.node r) hc]
    exact ⟨_, rfl, rfl⟩
  obtain ⟨x, hx, hadd⟩ := hstored
  refine ⟨hown, ?_, fun m hm' => ?_⟩ <;> rw [hrun]
  · simp [hadd, Store.next, Store.add]
  · obtain rfl : m' = m := by simpa using hm.symm.trans hm'
    simp [hadd, Store.get_add, hx]

/-- What a guard makes of a node that has one: only the tag changes. -/
theorem install_follows (hopen : w.Open (.node r)) {x : Ref .wrapper}
    (hown : w.own? (.node r) = some (a.guarded x g')) (obstruct : Obstruction ε) (g : Ref .guard) :
    (World.install obstruct w g (.node r)).2.own? (.node r) = some (a.guarded x g) ∧
      w.wrappers.Grows Wrapper.content (World.install obstruct w g (.node r)).2.wrappers := by
  have hm : w.member (.node r) Node.acceptField = .ok (.value (.wrapper x)) :=
    member_of_carried rfl (by simp only [carried, hown, Option.getD_some,
      Attributes.get?_accept_guarded])
  have hown' := install_own obstruct hopen hm rfl hown g
  rw [Attributes.has_guarded, if_pos rfl, Attributes.set_guarded] at hown'
  exact ⟨hown', (still_install obstruct hopen g).wrappers⟩

theorem Open.of_cls (h : w.Open (.node r))
    (hcls : (w'.nodes.get r).cls = (w.nodes.get r).cls) : w'.Open (.node r) := by
  intro name hn
  simp only [obstacle?, hcls]
  exact h name hn

/-- What a change makes of the class of a node: nothing. -/
theorem cls_run (obstruct : Obstruction ε) (c : Change) (hopen : w.Open (.node r)) :
    ((c.run obstruct r w).nodes.get r).cls = (w.nodes.get r).cls := by
  cases c with
  | uninstall => exact (uninstall_run w (.node r)).1.nodes r
  | install g => exact (still_install obstruct hopen g).nodes r

/-- What changes have made of a node that carried attributes `a` in the beginning and whose class
has something callable as `accept`. Apart from marks it carries `b`, and this is what it carried
then, unless it had an `accept` of its own and the guard has been taken off. -/
structure Carries (r : Ref .node) (w₀ : World ε) (a : Attributes) (cs : List Change) (w : World ε)
    (b : Attributes) : Prop where
  cls : (w.nodes.get r).cls = (w₀.nodes.get r).cls
  rest : b = a ∨ b = a.erase Node.acceptField ∧ Change.uninstall ∈ cs
  wears : match (Change.since cs).getLast? with
    | none => w.own? (.node r) = some b
    | some g => ∃ x, w.own? (.node r) = some (b.guarded x g)

namespace Carries

theorem wears_bare (h : Carries r w₀ a cs w b) (hnone : Change.since cs = []) :
    w.own? (.node r) = some b := by
  simpa [hnone] using h.wears

theorem untagged (h : Carries r w₀ a cs w b) (h₀ : w₀.Receptive r a) :
    b.get? Node.guardField = none := by
  rcases h.rest with rfl | ⟨rfl, -⟩
  · exact h₀.untagged
  · rw [Attributes.get?_erase, if_neg (by decide), h₀.untagged]

theorem assignable (h : Carries r w₀ a cs w b) (h₀ : w₀.Receptive r a) : w.Open (.node r) :=
  h₀.assignable.of_cls h.cls

/-- A guard answers for the node exactly if one has come since the guard was last taken off, and
it is the one that has come last. -/
theorem tag?_eq (h : Carries r w₀ a cs w b) (h₀ : w₀.Receptive r a) :
    w.tag? (.node r) = (Change.since cs).getLast?.map .guard := by
  have hwears := h.wears
  cases hlast : (Change.since cs).getLast? with
  | none =>
    simp only [hlast] at hwears
    simp [tag?, hwears, h.untagged h₀]
  | some g =>
    simp only [hlast] at hwears
    obtain ⟨x, hx⟩ := hwears
    simp [tag?, hx, Attributes.guarded, Attributes.get?_set]

/-- What the node carries now is what it carried in the beginning, unless it has lost an `accept` of
its own. -/
theorem rest_eq (h : Carries r w₀ a cs w b)
    (hkept : a.get? Node.acceptField = none ∨ Change.uninstall ∉ cs) : b = a := by
  rcases h.rest with hb | ⟨hb, htaken⟩
  · exact hb
  · rw [hb]
    exact Attributes.erase_eq_self_iff.2 (hkept.resolve_right fun hnot => hnot htaken)

/-- A bare node shows what it showed in the beginning, unless it has lost an `accept` of its own. -/
theorem shows (h : Carries r w₀ a cs w b) (h₀ : w₀.Receptive r a) (hnone : Change.since cs = [])
    (hkept : a.get? Node.acceptField = none ∨ Change.uninstall ∉ cs) :
    w.member (.node r) Node.acceptField = w₀.member (.node r) Node.acceptField := by
  refine (Untouched.of_own ?_ h.cls).accept
  rw [h.wears_bare hnone, h.rest_eq hkept, h₀.own]

/-- Guards can be put on a bare node again. -/
theorem receptive (h : Carries r w₀ a cs w b) (h₀ : w₀.Receptive r a) {m : Member}
    (hclass : w₀.classMember? (.node r) Node.acceptField = some m) (hc : m.isCallable = true)
    (hnone : Change.since cs = []) : w.Receptive r b where
  own := h.wears_bare hnone
  untagged := h.untagged h₀
  assignable := h.assignable h₀
  callable := by
    rcases h.rest with rfl | ⟨rfl, -⟩
    · rw [(Untouched.of_own ((h.wears_bare hnone).trans h₀.own.symm) h.cls).accept]
      exact h₀.callable
    · exact ⟨m, by rw [member_of_erased (h.wears_bare hnone) h.cls, hclass]; rfl, hc⟩

/-- A guard is put on the node. -/
theorem install (h : Carries r w₀ a cs w b) (h₀ : w₀.Receptive r a) {m : Member}
    (hclass : w₀.classMember? (.node r) Node.acceptField = some m) (hc : m.isCallable = true)
    (obstruct : Obstruction ε) (g : Ref .guard) :
    Carries r w₀ a (cs ++ [.install g]) ((Change.install g).run obstruct r w) b where
  cls := (cls_run obstruct _ (h.assignable h₀)).trans h.cls
  rest := h.rest.imp id (And.imp_right (List.mem_append_left _))
  wears := by
    simp only [Change.since_append_install, List.getLast?_append, List.getLast?_singleton,
      Option.some_or]
    have hwears := h.wears
    cases hlast : (Change.since cs).getLast? with
    | none =>
      have hnone : Change.since cs = [] := List.getLast?_eq_none_iff.1 hlast
      exact ⟨_, ((h.receptive h₀ hclass hc hnone).install obstruct g).1⟩
    | some g' =>
      simp only [hlast] at hwears
      obtain ⟨x, hx⟩ := hwears
      exact ⟨x, (install_follows (h.assignable h₀) hx obstruct g).1⟩

/-- The guard is taken off the node, if there is one. -/
theorem uninstall (h : Carries r w₀ a cs w b) (h₀ : w₀.Receptive r a)
    (obstruct : Obstruction ε) :
    ∃ b, Carries r w₀ a (cs ++ [.uninstall]) (Change.uninstall.run obstruct r w) b := by
  have hcls := (cls_run obstruct .uninstall (h.assignable h₀)).trans h.cls
  have hwears := h.wears
  have htag := h.tag?_eq h₀
  cases hlast : (Change.since cs).getLast? with
  | none =>
    simp only [hlast] at hwears htag
    have hrun : (w.uninstall (.node r)).2 = w := by simp [World.uninstall, isGuarded, htag]
    refine ⟨b, hcls, h.rest.imp id (And.imp_right (List.mem_append_left _)), ?_⟩
    simpa [Change.run, hrun] using hwears
  | some g =>
    simp only [hlast] at hwears htag
    obtain ⟨x, hx⟩ := hwears
    obtain ⟨w', hrun, -, hown, -⟩ := uninstall_wears (.guarded x g hx) (h.untagged h₀)
      (by simp [isGuarded, htag])
    refine ⟨b.erase Node.acceptField, hcls, .inr ⟨?_, by simp⟩, ?_⟩
    · rcases h.rest with rfl | ⟨rfl, -⟩
      · rfl
      · simp [Attributes.erase, List.filter_filter]
    · simpa [Change.run, hrun] using hown

end Carries

/-- **What any changes make of the attributes of a node.** -/
theorem Undergoes.carries (h : Undergoes obstruct r w₀ cs w) (h₀ : w₀.Receptive r a) {m : Member}
    (hclass : w₀.classMember? (.node r) Node.acceptField = some m) (hc : m.isCallable = true) :
    ∃ b, Carries r w₀ a cs w b := by
  induction h with
  | start => exact ⟨a, rfl, .inl rfl, h₀.own⟩
  | change past c ih =>
    obtain ⟨b, hb⟩ := ih
    cases c with
    | install g => exact ⟨b, hb.install h₀ hclass hc obstruct g⟩
    | uninstall => exact hb.uninstall h₀ obstruct
  | meanwhile past aside ih =>
    obtain ⟨b, hb⟩ := ih
    refine ⟨b, by rw [aside.node, hb.cls], hb.rest, ?_⟩
    simpa only [own?, aside.node] using hb.wears

/-! ## One wrapper -/

/-- A node wears a wrapper that hides a value; some guard answers for the node. -/
structure Veiled (r : Ref .node) (b : Attributes) (x : Ref .wrapper) (inner : Value)
    (w : World ε) : Prop where
  assignable : w.Open (.node r)
  own : ∃ g, w.own? (.node r) = some (b.guarded x g)
  stored : x.index < w.wrappers.cells.size
  content : (w.wrappers.get x).content = (.node r, inner)

namespace Veiled

variable {x : Ref .wrapper} {inner : Value}

/-- What wrappers were made for does not change when others are made. -/
theorem of_grows (h : Veiled r b x inner w) (hcls : (w'.nodes.get r).cls = (w.nodes.get r).cls)
    (hown : ∃ g, w'.own? (.node r) = some (b.guarded x g))
    (hgrows : w.wrappers.Grows Wrapper.content w'.wrappers) : Veiled r b x inner w' where
  assignable := h.assignable.of_cls hcls
  own := hown
  stored := Nat.lt_of_lt_of_le h.stored hgrows.1
  content := (hgrows.2 x h.stored).trans h.content

theorem install (h : Veiled r b x inner w) (obstruct : Obstruction ε) (g : Ref .guard) :
    Veiled r b x inner ((Change.install g).run obstruct r w) := by
  obtain ⟨g', hown⟩ := h.own
  obtain ⟨hown', hgrows⟩ := install_follows h.assignable hown obstruct g
  exact h.of_grows (cls_run obstruct (.install g) h.assignable) ⟨g, hown'⟩ hgrows

theorem elsewhere (h : Veiled r b x inner w) (aside : Elsewhere r w w') :
    Veiled r b x inner w' := by
  refine h.of_grows (by rw [aside.node]) ?_ aside.wrappers
  simpa only [own?, aside.node] using h.own

/-- A wrapper stays on a node as long as guards follow one another. -/
theorem lasts (h : Veiled r b x inner u) (course : Undergoes obstruct r u later w)
    (lasting : Change.uninstall ∉ later) : Veiled r b x inner w := by
  induction course with
  | start => exact h
  | @change later w₁ past c ih =>
    have hveiled := ih fun hmem => lasting (List.mem_append_left _ hmem)
    cases c with
    | install g => exact hveiled.install obstruct g
    | uninstall => exact absurd (by simp) lasting
  | meanwhile past aside ih => exact (ih lasting).elsewhere aside

end Veiled

/-- **The wrapper that the first guard has made lasts**: those that follow leave it on the node, and
it hides what the node showed when that guard came. -/
theorem Reign.veiled (h : Reign obstruct r w₀ before u g later w) (hu : u.Receptive r b) {m : Member}
    (hm : u.member (.node r) Node.acceptField = .ok m) :
    Veiled r b u.wrappers.next (u.reveal (.node r) m).1 w := by
  obtain ⟨hown, hstored, hcontent⟩ := hu.install obstruct g
  have hfirst : Veiled r b u.wrappers.next (u.reveal (.node r) m).1
      ((Change.install g).run obstruct r u) :=
    ⟨hu.assignable.of_cls (cls_run obstruct (.install g) hu.assignable), ⟨g, hown⟩, hstored,
      hcontent m hm⟩
  exact hfirst.lasts h.course h.lasting

/-- What the class of a node has as `accept` is shown by a node that carries none of its own. -/
theorem Receptive.shows_class (h : w.Receptive r a) {m : Member}
    (hclass : w.classMember? (.node r) Node.acceptField = some m)
    (ha : a.get? Node.acceptField = none) :
    w.member (.node r) Node.acceptField = .ok m := by
  rw [member_of_getter_none rfl]
  simp only [memberHere, h.own, Option.getD_some, ha, hclass]

/-! ## Who answers for a node -/

/-- **The guard that has come last answers for a node, through the one wrapper that is on it.**
After any changes a node is guarded exactly if a guard has come since the guard was last taken off.
Its tag is the last of these guards; its wrapper was made by the first of them and hides what the
node showed at that moment. A visitor who may traverse the node is handed on to that, once, and all
others are left to the policy of the last guard, once, and to no other. What is hidden is the
`accept` that the node showed in the beginning: a node never loses the one of its class, and one of
its own only when the guard is taken off. -/
theorem Undergoes.last_guard_answers {F : Foreign ε κ} {m₀ : Member} (h₀ : w₀.Receptive r a)
    (hclass : w₀.classMember? (.node r) Node.acceptField = some m₀) (hc : m₀.isCallable = true)
    (h : Undergoes F.obstruct r w₀ cs w) :
    (w.isGuarded (.node r) = true ↔ Change.since cs ≠ []) ∧
    ∀ g, (Change.since cs).getLast? = some g →
      w.tag? (.node r) = some (.guard g) ∧
      ∃ before u g₁ later m,
        cs = before ++ .install g₁ :: later ∧ Reign F.obstruct r w₀ before u g₁ later w ∧
        u.member (.node r) Node.acceptField = .ok m ∧
        (a.get? Node.acceptField = none → m = m₀) ∧
        (Change.uninstall ∉ before → w₀.member (.node r) Node.acceptField = .ok m) ∧
        (w.carried (.node r)).get? Node.acceptField = some (.wrapper u.wrappers.next) ∧
        (w.wrappers.get u.wrappers.next).content = (.node r, (u.reveal (.node r) m).1) ∧
        ∀ (t : Thread) (S : Surroundings ε κ) (visitor : Value), S.Deferring F t →
          w.Settled visitor → w.Unhidden (.guard g) →
          (∃ b, w.isTrue (w.ownValue (.guard g) Guard.quietField) = .ok b) →
          ∃ o σ, S.Runs (Walk.send (.node r) .accept [visitor]) (.start w) o σ ∧
            (w.Entitles t visitor →
              S.SettledBy w (.apply (u.reveal (.node r) m).1 [visitor]) o σ) ∧
            (¬ w.Entitles t visitor → S.SettledBy (w.noticed t g (.node r) visitor)
              (.send (w.ownValue (.guard g) Guard.policyField) .handle [.node r, visitor]) o σ) := by
  obtain ⟨b, hb⟩ := h.carries h₀ hclass hc
  have htag := hb.tag?_eq h₀
  refine ⟨?_, fun g hg => ⟨by rw [htag, hg]; rfl, ?_⟩⟩
  · simp [isGuarded, htag, List.getLast?_isSome]
  rcases h.reign with hnone | ⟨before, u, g₁, later, hcs, hreign⟩
  · simp [hnone] at hg
  obtain ⟨b', hb'⟩ := hreign.past.carries h₀ hclass hc
  have hu := hb'.receptive h₀ hclass hc hreign.vacant
  obtain ⟨m, hm, -⟩ := hu.callable
  have hveiled := hreign.veiled hu hm
  obtain ⟨g', hown⟩ := hveiled.own
  have haccept : (w.carried (.node r)).get? Node.acceptField = some (.wrapper u.wrappers.next) := by
    simp only [carried, hown, Option.getD_some, Attributes.get?_accept_guarded]
  refine ⟨before, u, g₁, later, m, hcs, hreign, hm, fun ha => ?_, fun hkept => ?_, haccept,
    hveiled.content, ?_⟩
  · have hshown := (hb'.shows h₀ hreign.vacant (.inl ha)).symm.trans hm
    exact Except.ok.inj (hshown.symm.trans (h₀.shows_class hclass ha))
  · exact (hb'.shows h₀ hreign.vacant (.inr hkept)).symm.trans hm
  · intro t S visitor hS hv hunhidden hquiet
    have hguarded : w.GuardedBy (.node r) g (u.reveal (.node r) m).1 :=
      ⟨⟨_, haccept, hveiled.content⟩, by rw [htag, hg]; rfl⟩
    exact hS.attempt hguarded (by simp) hunhidden hquiet hv

/-! ## Two guards that follow one another -/

namespace Rivals

open Stranger

/-- The first guard comes to a node, is taken off and comes again; then the second one follows. -/
def changes : List Change := [.install ⟨0⟩, .uninstall, .install ⟨0⟩, .install ⟨1⟩]

/-- The world after the first guard of the node has been taken off. -/
def bare : World Unit := (guarded.uninstall (.node ⟨1⟩)).2

/-- The world after the first guard has come back. -/
def restored : World Unit := (World.install code.obstruct bare ⟨0⟩ (.node ⟨1⟩)).2

/-- The world after the second guard has come. -/
def world : World Unit := (World.install code.obstruct restored ⟨1⟩ (.node ⟨1⟩)).2

theorem undergoes : Undergoes code.obstruct ⟨1⟩ Stranger.world changes world :=
  (((Undergoes.start.change (.install ⟨0⟩)).change .uninstall).change (.install ⟨0⟩)).change
    (.install ⟨1⟩)

theorem receptive : Stranger.world.Receptive ⟨1⟩ ((Stranger.world.nodes.get ⟨1⟩).attributes) where
  own := rfl
  untagged := rfl
  assignable _ _ := rfl
  callable := ⟨.bound .accept, rfl, rfl⟩

/-- The token of the visitor's guard is held by another thread. -/
theorem holds : world.Holds ⟨2⟩ ⟨0⟩ { view with asleep := (world.conditions.get ⟨0⟩).asleep } := by
  have hrestored : restored.Holds ⟨2⟩ ⟨0⟩ view :=
    holds_among restored.nodes restored.methods restored.wrappers
  exact hrestored.still (still_install code.obstruct (fun _ _ => rfl) ⟨1⟩)

theorem shownGuard?_eq : world.shownGuard? (.visitor ⟨0⟩) = some ⟨2⟩ := rfl

theorem settled : world.Settled (.visitor ⟨0⟩) := by
  intro g hg
  obtain rfl := Option.some.inj (shownGuard?_eq.symm.trans hg)
  exact ⟨_, _, holds⟩

end Rivals

open Stranger Rivals in
/-- The node wears the second wrapper that was made for it, around the method of its class. The
visitor traverses the node on the thread that holds the token of the visitor's guard; elsewhere the
visitor is left to the policy of the second guard. -/
theorem last_rival_answers :
    Rivals.world.tag? (.node ⟨1⟩) = some (.guard ⟨1⟩) ∧
      (Rivals.world.carried (.node ⟨1⟩)).get? Node.acceptField = some (.wrapper ⟨1⟩) ∧
      Rivals.world.methods.get ⟨1⟩ = ⟨.node ⟨1⟩, .accept⟩ ∧
      (∃ o σ, (surroundings owner).Runs (Walk.send (.node ⟨1⟩) .accept [.visitor ⟨0⟩])
        (.start Rivals.world) o σ ∧
        σ.calls.filter Call.settles = [.apply (.method ⟨1⟩) [.visitor ⟨0⟩]]) ∧
      ∃ o σ, (surroundings .main).Runs (Walk.send (.node ⟨1⟩) .accept [.visitor ⟨0⟩])
        (.start Rivals.world) o σ ∧
        σ.calls.filter Call.settles =
          [.send (.policy ⟨1⟩) .handle [.node ⟨1⟩, .visitor ⟨0⟩]] := by
  have hclass : Stranger.world.classMember? (.node ⟨1⟩) Node.acceptField = some (.bound .accept) :=
    rfl
  obtain ⟨-, hlast⟩ := undergoes.last_guard_answers (F := code) Rivals.receptive hclass rfl
  obtain ⟨htag, before, u, g₁, later, m, -, -, -, -, -, haccept, hcontent, hanswers⟩ := hlast ⟨1⟩ rfl
  have hworn : (Rivals.world.carried (.node ⟨1⟩)).get? Node.acceptField = some (.wrapper ⟨1⟩) := rfl
  have hwrapper : u.wrappers.next = ⟨1⟩ :=
    Value.wrapper.inj (Option.some.inj (haccept.symm.trans hworn))
  rw [hwrapper] at hcontent
  have hinner : (u.reveal (.node ⟨1⟩) m).1 = .method ⟨1⟩ := (congrArg Prod.snd hcontent).symm
  have hunhidden : Rivals.world.Unhidden (.guard ⟨1⟩) := unhidden_of_names (by decide)
  have hentitled (t : Thread) := Rivals.holds.entitles_iff (t := t) Rivals.shownGuard?_eq
  refine ⟨htag, hworn, rfl, ?_, ?_⟩
  · obtain ⟨o, σ, hruns, hmay, -⟩ := hanswers owner (surroundings owner) (.visitor ⟨0⟩)
      (deferring owner) Rivals.settled hunhidden ⟨true, rfl⟩
    have hfree : Rivals.world.Entitles owner (.visitor ⟨0⟩) := (hentitled owner).2 fun o ho => by
      obtain rfl := Option.some.inj ho
      rfl
    rw [hinner] at hmay
    exact ⟨o, σ, hruns, (hmay hfree).1⟩
  · obtain ⟨o, σ, hruns, -, hnot⟩ := hanswers .main (surroundings .main) (.visitor ⟨0⟩)
      (deferring .main) Rivals.settled hunhidden ⟨true, rfl⟩
    have hbusy : ¬ Rivals.world.Entitles .main (.visitor ⟨0⟩) := fun h =>
      absurd ((hentitled .main).1 h _ rfl) (by decide)
    exact ⟨o, σ, hruns, (hnot hbusy).1⟩

end World

end GuardedWalk
