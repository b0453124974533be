import GuardedWalk.Proofs.Walk.Attending
import GuardedWalk.Proofs.World.Installing

/-!
# Guards are put on whatever comes first

Before an event is announced, the guard of the walker is put on the first argument of the event,
whatever that is. Foreign code may keep the marks of the guard from being assigned. As long as it
fails in a way that guards expect, the walk goes on, and if not just the tag is stopped, visitors
are received by the value as they were before.

## Main definitions

* `GuardedWalk.World.Declines` — foreign code keeps marks from being assigned in a way that guards
  expect.
* `GuardedWalk.World.Approached` — how the world goes on after a guard has come to a node.
* `GuardedWalk.World.Unanswered` — a wrapper for which no guard answers.
* `GuardedWalk.Cast.Keeps` — what neither the walk disturbs nor others.

## Main results

* `GuardedWalk.World.install_declined` — a guard comes to a value, and the walk can go on.
* `GuardedWalk.World.Approached.greets` — visitors are received as before, unless the node has been
  left with half a guard.
* `GuardedWalk.Cast.Keeps.hosts`, `Keeps.admits` — a walk can go on, and guards can be put on
  values.
-/

set_option autoImplicit false

namespace GuardedWalk

variable {ε κ : Type}

namespace World

variable {w w₁ w' : World ε} {X : Cast} {D : Ref .list → Prop} {obstruct : Obstruction ε}
  {g : Ref .guard} {r : Ref .node} {v : Value} {V : Value → Prop}

theorem Still.peaceful (h : Still w w') (hn : w'.nodes = w.nodes) (hs : w'.sessions = w.sessions) :
    Peaceful X D w w' where
  toFrame := h.frame X.lasting_intact
  sameNodes := hn
  sameSessions := hs
  lists l _ := by simp [items, h.lists]

/-! ## Foreign code that stops an assignment -/

/-- Foreign code that keeps marks of a value from being assigned fails as guards expect it to, and
leaves alone what a walk relies on. -/
def Declines (X : Cast) (D : Ref .list → Prop) (obstruct : Obstruction ε) (w : World ε)
    (v : Value) : Prop :=
  ∀ name ∈ Node.marks, ∀ id, w.obstacle? v name = some id → ∀ w₁ : World ε,
    Peaceful X D w₁ (obstruct id w₁).2 ∧
      (obstruct id w₁).2.isAttributeOrType (obstruct id w₁).1 = true

theorem Declines.frame (h : Declines X D obstruct w v) (hf : Frame V w w') :
    Declines X D obstruct w' v :=
  fun name hn id hid => h name hn id ((obstacle?_frame hf v name).symm.trans hid)

/-- Where nothing is stopped nothing is to be said about it. -/
theorem Open.declines (h : w.Open v) : Declines X D obstruct w v :=
  fun name hn id hid => by simp [h name hn] at hid

theorem peaceful_cannotGuard (X : Cast) (D : Ref .list → Prop) (w : World ε) (v : Value) :
    ∃ w', w.cannotGuard v = (.ok false, w') ∧ Peaceful X D w w' := by
  obtain ⟨j, hj⟩ := w.log_eq .debug .guard ("Cannot guard " ++ w.className v)
  refine ⟨_, rfl, ?_⟩
  rw [say, hj]
  exact (still_journal w j).peaceful rfl rfl

/-- A guard that foreign code does not let onto a value leaves alone what a walk relies on. -/
theorem Declines.run (h : Declines X D obstruct w v) {name : String} (hn : name ∈ Node.marks)
    {id : Nat} (hid : w.obstacle? v name = some id) (w₁ : World ε) :
    ∃ w', (obstruct id w₁).2.installFailed v (obstruct id w₁).1 = (.ok false, w') ∧
      Peaceful X D w₁ w' := by
  obtain ⟨hp, hc⟩ := h name hn id hid w₁
  obtain ⟨w', hrun, hp'⟩ := peaceful_cannotGuard X D (obstruct id w₁).2 v
  exact ⟨w', by rw [installFailed, if_pos hc, hrun], hp.trans hp'⟩

/-! ## Nodes -/

/-- The same guards can be put on a node of the same class with the same attributes. -/
theorem takesHalf_congr (hf : Frame V w w')
    (hc : w'.carried (.node r) = w.carried (.node r)) :
    w'.TakesHalf (.node r) ↔ w.TakesHalf (.node r) := by
  have hsame : Untouched w w' (.node r) := .of_own (own?_of_carried hf hc) (hf.nodes r)
  have htag : w'.isGuarded (.node r) = w.isGuarded (.node r) := by
    simp only [isGuarded, tag?, hsame.own]
  constructor
  · rintro ⟨callable, carries, untagged, accept, tag⟩
    rw [hsame.accept] at callable
    rw [hsame.own] at carries
    rw [htag] at untagged
    rw [obstacle?_frame hf] at accept tag
    exact ⟨callable, carries, untagged, accept, tag⟩
  · rintro ⟨callable, carries, untagged, accept, tag⟩
    rw [← hsame.accept] at callable
    rw [← hsame.own] at carries
    rw [← htag] at untagged
    rw [← obstacle?_frame hf] at accept tag
    exact ⟨callable, carries, untagged, accept, tag⟩

/-- A node shows a wrapper that was made for it, and no guard answers for the node. -/
structure Unanswered (w : World ε) (r : Ref .node) : Prop where
  accept : ∃ x : Ref .wrapper, (w.carried (.node r)).get? Node.acceptField = some (.wrapper x) ∧
    x.index < w.wrappers.cells.size ∧ (w.wrappers.get x).node = .node r
  tag : w.tag? (.node r) = none

theorem Unanswered.frame (h : w.Unanswered r) (hf : Frame V w w')
    (hc : w'.carried (.node r) = w.carried (.node r)) : w'.Unanswered r where
  accept := by
    obtain ⟨x, hx, hlt, hnode⟩ := h.accept
    exact ⟨x, by rw [hc, hx], Nat.lt_of_lt_of_le hlt hf.wrappers.1,
      (congrArg Prod.fst (hf.wrappers.2 x hlt)).trans hnode⟩
  tag := by
    have htag : (w.carried (.node r)).get? Node.guardField = none := h.tag
    show (w'.carried (.node r)).get? Node.guardField = none
    rw [hc, htag]

/-- How the world goes on after a guard has come to a node around whose `accept` a wrapper is to be
made: the node is left alone, or the guard answers for it, or only half of the guard is put on
it. -/
inductive Approached (X : Cast) (D : Ref .list → Prop) (g : Ref .guard) (w : World ε)
    (r : Ref .node) (inner : Value) : World ε → Prop where
  /-- The node is left alone: it carries no attributes, or the first mark cannot be assigned. -/
  | spared {w' : World ε} (stops : w.own? (.node r) = none ∨ w.isGuarded (.node r) = true ∨
      (w.obstacle? (.node r) Node.acceptField).isSome) (h : Peaceful X D w w') :
    Approached X D g w r inner w'
  /-- The node has carried a tag before. -/
  | again (carries : (w.own? (.node r)).isSome) (tagged : w.isGuarded (.node r) = true) :
    Approached X D g w r inner (w.setOwn (.node r) Node.guardField (.guard g))
  /-- The node has been given a wrapper and a tag. -/
  | first (carries : (w.own? (.node r)).isSome) (untagged : w.isGuarded (.node r) = false)
    (assignable : w.obstacle? (.node r) Node.guardField = none) :
    Approached X D g w r inner (w.wrapped r inner g)
  /-- The node has been given a wrapper, but no tag. -/
  | half {w' : World ε} (carries : (w.own? (.node r)).isSome)
    (untagged : w.isGuarded (.node r) = false)
    (assignable : w.obstacle? (.node r) Node.acceptField = none)
    (stops : (w.obstacle? (.node r) Node.guardField).isSome)
    (h : Peaceful X D (w.hung (.node r) inner) w') : Approached X D g w r inner w'

theorem tag_declined (hd : Declines X D obstruct w (.node r)) (ho : (w.own? (.node r)).isSome)
    (g : Ref .guard) :
    ∃ b w', World.tag obstruct w g (.node r) = (.ok b, w') ∧
      ((w.obstacle? (.node r) Node.guardField).isSome ∧ Peaceful X D w w' ∨
        w.obstacle? (.node r) Node.guardField = none ∧
          w' = w.setOwn (.node r) Node.guardField (.guard g)) := by
  rw [tag_of_mark (by simp [Unslotted]) ho]
  cases hid : w.obstacle? (.node r) Node.guardField with
  | some id =>
    obtain ⟨w', hrun, hp⟩ := hd.run Node.guardField_mem_marks hid w
    exact ⟨false, w', hrun, .inl ⟨rfl, hp⟩⟩
  | none => exact ⟨true, _, rfl, .inr ⟨rfl, rfl⟩⟩

theorem peaceful_newWrapper (w : World ε) (v inner : Value) :
    Peaceful X D w (w.newWrapper v inner).2 :=
  (still_newWrapper w v inner).peaceful rfl rfl

/-- The first guard comes to a node. -/
theorem installOn_first_declined (hd : Declines X D obstruct w (.node r)) (g : Ref .guard)
    (inner : Value) (ho : (w.own? (.node r)).isSome) (ht : w.isGuarded (.node r) = false) :
    ∃ b w', installOn obstruct w g (.node r) inner = (.ok b, w') ∧
      Approached X D g w r inner w' := by
  have hv : w.Unslotted (.node r) := by simp [Unslotted]
  obtain ⟨hstopped, hpassed⟩ := installOn_first (g := g) hv inner ho ht
  cases ha : w.obstacle? (.node r) Node.acceptField with
  | some id =>
    obtain ⟨w', hrun, hp⟩ :=
      hd.run Node.acceptField_mem_marks ha (w.newWrapper (.node r) inner).2
    refine ⟨false, w', (hstopped id ha).trans hrun, .spared (.inr (.inr ?_)) ?_⟩
    · rw [ha]
      rfl
    · exact (peaceful_newWrapper w _ inner).trans hp
  | none =>
    have hf := (still_hung ho inner).toFrame
    obtain ⟨b, w', hrun, hw⟩ := tag_declined (hd.frame hf) (own?_hung ho inner) g
    rw [obstacle?_frame hf] at hw
    refine ⟨b, w', (hpassed ha).trans hrun, ?_⟩
    rcases hw with ⟨hid, hp⟩ | ⟨hid, rfl⟩
    · exact .half ho ht ha hid hp
    · exact .first ho ht hid

/-- A guard comes to a node, and whatever becomes of it, the walk can go on. -/
theorem installOn_declined (hd : Declines X D obstruct w (.node r)) (g : Ref .guard)
    (inner : Value) :
    ∃ b w', installOn obstruct w g (.node r) inner = (.ok b, w') ∧
      Approached X D g w r inner w' := by
  cases ho : w.own? (.node r) with
  | none =>
    obtain ⟨w', hrun, hp⟩ := peaceful_cannotGuard X D w (.node r)
    exact ⟨false, w', by simp only [installOn, ho, hrun], .spared (.inl ho) hp⟩
  | some a =>
    have ho' : (w.own? (.node r)).isSome := by simp [ho]
    cases ht : w.isGuarded (.node r) with
    | false => exact installOn_first_declined hd g inner ho' ht
    | true =>
      have htag : installOn obstruct w g (.node r) inner = World.tag obstruct w g (.node r) := by
        simp [installOn, ho, ← isGuarded_eq ho, ht]
      obtain ⟨b, w', hrun, hw⟩ := tag_declined hd ho' g
      refine ⟨b, w', htag.trans hrun, ?_⟩
      rcases hw with ⟨-, hp⟩ | ⟨-, rfl⟩
      · exact .spared (.inr (.inl ht)) hp
      · exact .again ho' ht

namespace Approached

variable {inner : Value}

theorem frame (h : Approached X D g w r inner w') : Frame X.Intact w w' := by
  cases h with
  | spared stops h => exact h.toFrame
  | again carries tagged =>
    exact (still_setMark carries Node.guardField_mem_marks _).frame X.lasting_intact
  | first carries untagged assignable =>
    exact ((still_hung carries inner).trans (still_setMark (own?_hung carries inner)
      Node.guardField_mem_marks _)).frame X.lasting_intact
  | half carries untagged assignable stops h =>
    exact ((still_hung carries inner).frame X.lasting_intact).trans h.toFrame

/-- All other nodes are left alone. -/
theorem carried_of_ne (h : Approached X D g w r inner w') {n : Ref .node} (hn : n ≠ r) :
    w'.carried (.node n) = w.carried (.node n) := by
  have hne : Value.node n ≠ .node r := fun h => hn (Value.node.inj h)
  have hhung : ∀ ho : (w.own? (.node r)).isSome,
      (w.hung (.node r) inner).carried (.node n) = w.carried (.node n) := by
    intro ho
    show ((w.newWrapper (.node r) inner).2.setOwn (.node r) Node.acceptField _).carried _ = _
    rw [carried_setOwn (own?_newWrapper ho inner), if_neg hne]
    rfl
  cases h with
  | spared stops h => exact carried_of_nodes h.sameNodes n
  | again carries tagged => rw [carried_setOwn carries, if_neg hne]
  | first carries untagged assignable =>
    show ((w.hung (.node r) inner).setOwn (.node r) Node.guardField _).carried _ = _
    rw [carried_setOwn (own?_hung carries inner), if_neg hne, hhung carries]
  | half carries untagged assignable stops h =>
    exact (carried_of_nodes h.sameNodes n).trans (hhung carries)

/-- **Visitors are received as before**, unless only half a guard has been put on the node. -/
theorem greets (h : Approached X D g w r inner w') {way : Option Value} (hw : w.Greets r way)
    (hg : w.Unhidden (.guard g))
    (hcovers : w.isGuarded (.node r) = false → w.Covers r way inner)
    (hwhole : (w.own? (.node r)).isSome → w.isGuarded (.node r) = false →
      w.obstacle? (.node r) Node.acceptField = none → w.obstacle? (.node r) Node.guardField = none) :
    w'.Greets r way := by
  cases h with
  | spared stops h => exact hw.frame h.toFrame (carried_of_nodes h.sameNodes r)
  | again carries tagged => exact hw.retag carries tagged hg
  | first carries untagged assignable => exact .wrapped hw.usual carries (hcovers untagged) hg
  | half carries untagged assignable stops h =>
    simp [hwhole carries untagged assignable] at stops

theorem isGuarded_again (h : Approached X D g w r inner w')
    (ht : w.isGuarded (.node r) = true) : w'.isGuarded (.node r) = true := by
  cases h with
  | spared stops h => rwa [isGuarded, tag?, own?_of_nodes h.sameNodes r]
  | again carries tagged => rw [isGuarded, tag?_setOwn carries]; rfl
  | first carries untagged assignable => simp [ht] at untagged
  | half carries untagged assignable stops h => simp [ht] at untagged

/-- A node that takes half a guard is left with one. -/
theorem unanswered (h : Approached X D g w r inner w') (ht : w.TakesHalf (.node r)) :
    w'.Unanswered r := by
  cases h with
  | spared stops h =>
    obtain ⟨-, carries, untagged, accept, -⟩ := ht
    rcases stops with stops | stops | stops
    · simp [stops] at carries
    · simp [stops] at untagged
    · simp [accept] at stops
  | again carries tagged => simp [ht.untagged] at tagged
  | first carries untagged assignable => simpa [assignable] using ht.tag
  | half carries untagged assignable stops h =>
    have hc := carried_hung carries inner
    have htag : (w.carried (.node r)).get? Node.guardField = none := by
      simpa [isGuarded, tag?, carried] using untagged
    have hnew : (w.newWrapper (.node r) inner).2.carried (.node r) = w.carried (.node r) := rfl
    have hhalf : (w.hung (.node r) inner).Unanswered r := by
      refine ⟨⟨w.wrappers.next, ?_, ?_, ?_⟩, ?_⟩
      · rw [hc, Attributes.get?_set, if_pos rfl]
      · exact Nat.lt_of_lt_of_le (by simp [newWrapper, Store.next, Store.add])
          (still_setMark (own?_newWrapper carries inner) Node.acceptField_mem_marks
            (.wrapper w.wrappers.next)).wrappers.1
      · exact congrArg Prod.fst (content_hung carries inner (.refl _ _))
      · show ((w.hung (.node r) inner).carried (.node r)).get? Node.guardField = none
        rw [hc, Attributes.get?_set, if_neg (by decide), hnew, htag]
    exact hhalf.frame h.toFrame (carried_of_nodes h.sameNodes r)

/-- A node that takes no half of a guard does not take one later. -/
theorem takesHalf (h : Approached X D g w r inner w') (ht : w'.TakesHalf (.node r)) :
    w.isGuarded (.node r) = false ∧ (w.own? (.node r)).isSome ∧
      w.obstacle? (.node r) Node.acceptField = none ∧
      (w.obstacle? (.node r) Node.guardField).isSome := by
  have hf := h.frame
  refine ⟨?_, (own?_isSome_frame hf _).symm.trans ht.carries, ?_, ?_⟩
  · have htag := ht.untagged
    cases hw : w.isGuarded (.node r) with
    | false => rfl
    | true => simp [h.isGuarded_again hw] at htag
  · exact (obstacle?_frame hf _ _).symm.trans ht.accept
  · simpa only [obstacle?_frame hf] using ht.tag

end Approached

/-- A node whose wrapper nobody answers for can be given another one, and then nobody answers for
that. -/
theorem Unanswered.takesHalf (h : w'.Unanswered r) (hf : Frame V w w')
    (ht : w.TakesHalf (.node r)) : w'.TakesHalf (.node r) where
  callable := by
    obtain ⟨x, hx, -⟩ := h.accept
    exact ⟨_, member_of_carried rfl hx, rfl⟩
  carries := (own?_isSome_frame hf _).trans ht.carries
  untagged := by simp [isGuarded, h.tag]
  accept := (obstacle?_frame hf _ _).trans ht.accept
  tag := by simpa only [obstacle?_frame hf] using ht.tag

/-- A node receives visitors in a known way, and no half of a guard can be put on it. -/
structure Welcomes (w : World ε) (r : Ref .node) (way : Option Value) : Prop where
  greets : w.Greets r way
  whole : ¬ w.TakesHalf (.node r)

theorem Welcomes.frame {way : Option Value} (h : w.Welcomes r way) (hf : Frame V w w')
    (hc : w'.carried (.node r) = w.carried (.node r)) : w'.Welcomes r way :=
  ⟨h.greets.frame hf hc, fun ht => h.whole ((takesHalf_congr hf hc).1 ht)⟩

theorem peaceful_reveal {m : Member} (hc : m.isCallable = true) :
    Peaceful X D w (w.reveal v m).2 := by
  obtain ⟨hstill, hn⟩ := still_reveal_callable (w := w) (v := v) hc
  refine hstill.peaceful hn ?_
  cases m with
  | value x | function n | bound n => rfl
  | number x | row items | listing items => cases hc

/-- Nothing comes of a guard for a node that shows nothing callable; otherwise a wrapper is to be
made around what the node shows. -/
theorem install_node_cases (hd : Declines X D obstruct w (.node r)) (g : Ref .guard) :
    (install obstruct w g (.node r) = (.ok false, w) ∧
      ∀ m, w.member (.node r) Node.acceptField = .ok m → m.isCallable = false) ∨
    ∃ m b w', w.member (.node r) Node.acceptField = .ok m ∧ m.isCallable = true ∧
      install obstruct w g (.node r) = (.ok b, w') ∧
      Approached X D g (w.reveal (.node r) m).2 r (w.reveal (.node r) m).1 w' := by
  rcases install_shows obstruct w g (.node r) with hnone | ⟨m, hm, hc, hshown⟩
  · exact .inl hnone
  have hp : Peaceful X D w (w.reveal (.node r) m).2 := peaceful_reveal hc
  obtain ⟨b, w', hrun, hw'⟩ := installOn_declined (hd.frame hp.toFrame) g (w.reveal (.node r) m).1
  exact .inr ⟨m, b, w', hm, hc, hshown.trans hrun, hw'⟩

/-- What a guard that comes to a node leaves alone. -/
theorem install_node (hd : Declines X D obstruct w (.node r)) (hg : w.Unhidden (.guard g)) :
    ∃ b w', install obstruct w g (.node r) = (.ok b, w') ∧ Frame X.Intact w w' ∧
      (∀ n, n ≠ r → w'.carried (.node n) = w.carried (.node n)) ∧
      (∀ way, w.Welcomes r way → w'.Welcomes r way) ∧
      (w.TakesHalf (.node r) → w'.Unanswered r) := by
  rcases install_node_cases (X := X) (D := D) hd g with
    ⟨hrun, hm⟩ | ⟨m, b, w', hm, hc, hrun, hw'⟩
  · refine ⟨false, w, hrun, .refl _ w, fun _ _ => rfl, fun _ h => h, fun h => ?_⟩
    obtain ⟨m, hm', hc⟩ := h.callable
    simp [hm m hm'] at hc
  · have hp : Peaceful X D w (w.reveal (.node r) m).2 := peaceful_reveal hc
    have hsame := carried_of_nodes hp.sameNodes
    have hown := own?_of_nodes hp.sameNodes r
    have htag : (w.reveal (.node r) m).2.isGuarded (.node r) = w.isGuarded (.node r) := by
      simp only [isGuarded, tag?, hown]
    have hobs := obstacle?_frame hp.toFrame (.node r)
    refine ⟨b, w', hrun, hp.toFrame.trans hw'.frame,
      fun n hn => (hw'.carried_of_ne hn).trans (hsame n), fun way h => ⟨?_, fun ht => ?_⟩,
      fun h => hw'.unanswered ((takesHalf_congr hp.toFrame (hsame r)).2 h)⟩
    · refine hw'.greets (h.greets.frame hp.toFrame (hsame r)) (hp.toFrame.guards g hg)
        (fun ht => h.greets.reveal ?_ hm) fun carries untagged accept => ?_
      · have huntagged : w.isGuarded (.node r) = false := htag.symm.trans ht
        simpa [isGuarded, tag?, carried, Attributes.has] using huntagged
      · cases hid : (w.reveal (.node r) m).2.obstacle? (.node r) Node.guardField with
        | none => rfl
        | some id =>
          rw [hown] at carries
          rw [htag] at untagged
          rw [hobs] at accept hid
          exact absurd ⟨⟨m, hm, hc⟩, carries, untagged, accept, by rw [hid]; rfl⟩ h.whole
    · obtain ⟨untagged, carries, accept, tag⟩ := hw'.takesHalf ht
      rw [hown] at carries
      rw [htag] at untagged
      rw [hobs] at accept tag
      exact h.whole ⟨⟨m, hm, hc⟩, carries, untagged, accept, tag⟩

/-- **A guard comes to a value, and whatever becomes of that, a walk can go on.** -/
theorem install_declined (hd : Declines X D obstruct w v) (hg : w.Unhidden (.guard g)) :
    ∃ b w', install obstruct w g v = (.ok b, w') ∧ Frame X.Intact w w' ∧
      (∀ r, v ≠ .node r → w'.carried (.node r) = w.carried (.node r)) ∧
      (∀ r way, w.Welcomes r way → w'.Welcomes r way) ∧
      ∀ r, v = .node r → w.TakesHalf v → w'.Unanswered r := by
  by_cases hv : ∃ r, v = .node r
  · obtain ⟨r, rfl⟩ := hv
    obtain ⟨b, w', hrun, hf, hothers, hwelcomes, hhalf⟩ := install_node hd hg
    have hne : ∀ n, Value.node r ≠ .node n → n ≠ r := fun n h h' => h (by rw [h'])
    refine ⟨b, w', hrun, hf, fun n hn => hothers n (hne n hn), fun n way h => ?_, fun n hn h => ?_⟩
    · by_cases hn : n = r
      · exact hn ▸ hwelcomes way (hn ▸ h)
      · exact h.frame hf (hothers n hn)
    · obtain rfl := Value.node.inj hn
      exact hhalf h
  · have hne : ∀ r, v ≠ .node r := fun r h => hv ⟨r, h⟩
    have hopen : w.Open v := fun name _ => by
      cases v
      case node r => exact absurd rfl (hne r)
      all_goals rfl
    obtain ⟨b, w', hrun, hf, hothers⟩ : ∃ b w', install obstruct w g v = (.ok b, w') ∧
        Frame X.Intact w w' ∧ ∀ r, w'.carried (.node r) = w.carried (.node r) := by
      rcases install_cases obstruct hopen g with
        ⟨hrun, -⟩ | ⟨m, b, w', -, -, hrun, hstill, hothers, -⟩
      · exact ⟨false, w, hrun, .refl _ w, fun _ => rfl⟩
      · exact ⟨b, w', hrun, hstill.frame X.lasting_intact, fun r => hothers r (.inl (hne r))⟩
    exact ⟨b, w', hrun, hf, fun r _ => hothers r, fun r _ h => h.frame hf (hothers r),
      fun r h => absurd h (hne r)⟩

end World

/-! ## What a walk does not disturb -/

open World (Declines Peaceful)

/-- The scene of a walk that relies on no document stays as it is if nothing else happens to what
the walk relies on. -/
theorem Scene.frame {X : Cast} {strict : Bool} {D : Ref .list → Prop} {pins : List Pin} {h : Hold}
    {w w' : World ε} (hs : Scene X strict D (.done : Agenda κ) pins h w)
    (hf : World.Frame X.Intact w w') : Scene X strict D (.done : Agenda κ) pins h w' where
  assembled := hs.assembled.frame hf fun _ hv => .inl hv
  held := hs.held.frame hf (hf.carried _ (.inr rfl))
  pinned p hp := (hs.pinned p hp).frame hf
  fits := trivial

namespace Cast

variable {X : Cast} {F : Foreign ε κ} {D : Ref .list → Prop} {S : Surroundings ε κ}
  {obstruct : Obstruction ε} {I J : World ε → List (Occasion κ) → Prop}

/-- What a walk among others does not disturb, nor do the others. -/
structure Keeps (X : Cast) (D : Ref .list → Prop) (obstruct : Obstruction ε)
    (I : World ε → List (Occasion κ) → Prop) : Prop where
  peace : ∀ w w' L, Peaceful X D w w' → I w L → I w' L
  call : ∀ w L x, x.isCall = true → I w L → I w (L ++ [x])
  step : ∀ w w' L, w.Footstep X.token w' → I w L → I w' L
  install : ∀ w L v, w.Unhidden (.guard X.guard) → Declines X D obstruct w v → I w L →
    I (World.install obstruct w X.guard v).2 (L ++ [.guarded v])

namespace Keeps

theorem and (hI : X.Keeps D obstruct I) (hJ : X.Keeps D obstruct J) :
    X.Keeps D obstruct fun w L => I w L ∧ J w L where
  peace w w' L h hi := ⟨hI.peace w w' L h hi.1, hJ.peace w w' L h hi.2⟩
  call w L x hx hi := ⟨hI.call w L x hx hi.1, hJ.call w L x hx hi.2⟩
  step w w' L h hi := ⟨hI.step w w' L h hi.1, hJ.step w w' L h hi.2⟩
  install w L v hg hd hi := ⟨hI.install w L v hg hd hi.1, hJ.install w L v hg hd hi.2⟩

/-- Whatever the frame of a walk leaves alone. -/
theorem of_frame {P : World ε → Prop}
    (hP : ∀ (V : Value → Prop) (w w' : World ε), World.Frame V w w' → P w → P w') :
    X.Keeps D obstruct fun w (_ : List (Occasion κ)) => P w where
  peace _ _ _ h hi := hP _ _ _ h.toFrame hi
  call _ _ _ _ hi := hi
  step _ _ _ h hi := hP _ _ _ h.toFrame hi
  install w _ v hg hd hi := by
    obtain ⟨b, w', hrun, hf, -⟩ := World.install_declined hd hg
    rw [hrun]
    exact hP _ _ _ hf hi

/-- Foreign code goes on failing as guards expect it to. -/
theorem declines (vs : List Value) :
    X.Keeps D obstruct fun w (_ : List (Occasion κ)) => ∀ v ∈ vs, Declines X D obstruct w v :=
  of_frame fun _ _ _ hf hi v hv => (hi v hv).frame hf

/-- A node goes on receiving visitors in a known way. -/
theorem welcomes (r : Ref .node) (way : Option Value) :
    X.Keeps D obstruct fun w (_ : List (Occasion κ)) => w.Welcomes r way where
  peace _ _ _ h hi := hi.frame h.toFrame (World.carried_of_nodes h.sameNodes r)
  call _ _ _ _ hi := hi
  step _ _ _ h hi := hi.frame h.toFrame (World.carried_of_nodes h.sameNodes r)
  install w _ v hg hd hi := by
    obtain ⟨b, w', hrun, -, -, hwelcomes, -⟩ := World.install_declined hd hg
    rw [hrun]
    exact hwelcomes r way hi

/-- A node that takes half a guard has one as soon as a guard has come to it. -/
theorem half (r : Ref .node) :
    X.Keeps D obstruct fun w (L : List (Occasion κ)) =>
      w.TakesHalf (.node r) ∧ (.guarded (.node r) ∈ L → w.Unanswered r) where
  peace _ _ _ h hi :=
    have hc := World.carried_of_nodes h.sameNodes r
    ⟨(World.takesHalf_congr h.toFrame hc).2 hi.1, fun hL => (hi.2 hL).frame h.toFrame hc⟩
  call w L x hx hi := by
    refine ⟨hi.1, fun hL => ?_⟩
    rcases List.mem_append.1 hL with hL | hL
    · exact hi.2 hL
    · obtain rfl := List.mem_singleton.1 hL
      cases hx
  step _ _ _ h hi :=
    have hc := World.carried_of_nodes h.sameNodes r
    ⟨(World.takesHalf_congr h.toFrame hc).2 hi.1, fun hL => (hi.2 hL).frame h.toFrame hc⟩
  install w L v hg hd hi := by
    obtain ⟨b, w', hrun, hf, hothers, -, hhalf⟩ := World.install_declined hd hg
    rw [hrun]
    by_cases hv : v = .node r
    · have hu := hhalf r hv (hv ▸ hi.1)
      exact ⟨hu.takesHalf hf hi.1, fun _ => hu⟩
    · refine ⟨(World.takesHalf_congr hf (hothers r hv)).2 hi.1, fun hL => ?_⟩
      rcases List.mem_append.1 hL with hL | hL
      · exact (hi.2 hL).frame hf (hothers r hv)
      · exact absurd (Occasion.guarded.inj (List.mem_singleton.1 hL)).symm hv

end Keeps

/-- The setting of a walk that observers listen to without ever failing. -/
abbrev overheard (X : Cast) (D : Ref .list → Prop) (I : World ε → List (Occasion κ) → Prop) :
    Setting ε κ :=
  X.attended D .done I fun _ => none

namespace Keeps

/-- **A walk can go on along with whatever it does not disturb.** -/
theorem hosts (hI : X.Keeps D F.obstruct I) (hS : X.Attended F D (fun _ => none) S) :
    (X.overheard D I).Hosts F S :=
  hS.hosts (A := .done) trivial hI.peace hI.call (fun w w' L h => hI.step w w' L h.toFootstep)
    fun _ _ _ w L v hw hv hi => hI.install w L v hw.assembled.guardOpen hv.declines hi

theorem listens (hI : X.Keeps D F.obstruct I) (hS : X.Attended F D (fun _ => none) S) (h : Hold) :
    (X.overheard D I).Listens F S h where
  toBears := hS.bears hI.peace
  journal w j L := hI.peace w _ L ((World.still_journal w j).peaceful rfl rfl)
  hears _ _ _ _ n ho _ hg := hS.left hI.peace hI.call hg (occasion?_call ho n)

/-- **Guards can be put on values** if the foreign code that stops some of them fails as
expected. -/
theorem admits (hI : X.Keeps D F.obstruct I) {v : Value}
    (hd : ∀ w L, I w L → Declines X D F.obstruct w v) (h : Hold) :
    (X.overheard D I).Admits F h v := by
  intro pins w L hw hi
  have hopen : w.Unhidden (.guard X.guard) := hw.assembled.guardOpen
  obtain ⟨b, w', hrun, hf, -⟩ := World.install_declined (hd w L hi) hopen
  have hi' := hI.install w L v hopen (hd w L hi) hi
  rw [hrun] at hi'
  exact ⟨b, w', hrun, Scene.frame hw hf, hi'⟩

end Keeps

end Cast

end GuardedWalk
