import GuardedWalk.Proofs.Walk.Attending
import GuardedWalk.Proofs.World.Installing

/-!
# What is left of a node when its guards have gone

Any number of guards may be put on a node, and any number of walkers may walk over it. When the
guard is taken off then, once is enough, and all other attributes of the node are found as they
were. The `accept` goes with the guard in any case: if the node had none of its own before, all is
as before, and walks tell what they would have told. If it had one, that one is lost.

## Design

What happens to a node between the first guard and the end is a sequence of visits, each of them a
guard that is put on the node or a walk from its beginning to its end. Observers of such walks may
do whatever they like, as long as they leave nodes alone, and whatever the walk relies on.

## Main definitions

* `GuardedWalk.World.Receptive` — a node without a guard on which guards can be put.
* `GuardedWalk.World.Wears` — a node is as before, apart from a guard that has been put on it.
* `GuardedWalk.World.Visits` — a guard is put on a node, or a walker walks over it.
* `GuardedWalk.Cast.WalksAlike` — walks tell the same in two worlds.

## Main results

* `GuardedWalk.World.Visits.wears` — what a visit to a node leaves.
* `GuardedWalk.World.uninstall_wears` — what becomes of a node whose guard is taken off.
* `GuardedWalk.World.uninstall_takes_accept` — what is left after any visits to a node.
-/

set_option autoImplicit false

namespace GuardedWalk

variable {ε κ : Type}

/-! ## Attributes -/

namespace Attributes

/-- An attribute that is removed leaves no trace of what was assigned to it. -/
theorem erase_set_self (a : Attributes) (name : String) (v : Value) :
    (a.set name v).erase name = a.erase name := by
  induction a with
  | nil => simp [set, erase]
  | cons p rest ih =>
    obtain ⟨n, x⟩ := p
    simp only [erase] at ih
    by_cases hn : n = name
    · simp [set, erase, hn]
    · simp [set, erase, hn, ih]

/-- Removing an attribute changes something exactly if the attribute is set. -/
theorem erase_eq_self_iff {a : Attributes} {name : String} :
    a.erase name = a ↔ a.get? name = none := by
  rw [erase, List.filter_eq_self, get?, List.lookup_eq_none_iff]
  simp only [bne_iff_ne, ne_eq]
  exact forall₂_congr fun p _ => not_congr eq_comm

/-- The attributes of a node on which guards have been put. -/
def guarded (a : Attributes) (x : Ref .wrapper) (g : Ref .guard) : Attributes :=
  (a.set Node.acceptField (.wrapper x)).set Node.guardField (.guard g)

variable {a : Attributes} {x : Ref .wrapper} {g : Ref .guard}

theorem get?_accept_guarded : (a.guarded x g).get? Node.acceptField = some (.wrapper x) := by
  rw [guarded, get?_set, if_neg (by decide), get?_set, if_pos rfl]

theorem has_guarded : (a.guarded x g).has Node.guardField = true := by
  rw [has, guarded, get?_set, if_pos rfl]
  rfl

/-- A guard that comes later only changes the tag. -/
theorem set_guarded (g' : Ref .guard) :
    (a.guarded x g).set Node.guardField (.guard g') = a.guarded x g' := set_set ..

/-- Without the marks, all other attributes are as they were. -/
theorem erase_guarded (ha : a.get? Node.guardField = none) :
    ((a.guarded x g).erase Node.guardField).erase Node.acceptField = a.erase Node.acceptField := by
  have htag : (a.set Node.acceptField (.wrapper x)).get? Node.guardField = none := by
    rw [get?_set, if_neg (by decide), ha]
  rw [guarded, erase_set _ _ _ htag, erase_set_self]

end Attributes

namespace World

variable {w₀ w w' : World ε} {r : Ref .node} {a : Attributes} {D : Ref .list → Prop} {X : Cast}

/-! ## Guards on a node -/

/-- A node without a guard on which guards can be put. -/
structure Receptive (w : World ε) (r : Ref .node) (a : Attributes) : Prop where
  own : w.own? (.node r) = some a
  untagged : a.get? Node.guardField = none
  assignable : w.Open (.node r)
  callable : ∃ m, w.member (.node r) Node.acceptField = .ok m ∧ m.isCallable = true

/-- A node carries what it carried before, and the marks of a guard if one has been put on it. -/
inductive Wears (w : World ε) (r : Ref .node) (a : Attributes) : Prop where
  | bare (own : w.own? (.node r) = some a)
  | guarded (x : Ref .wrapper) (g : Ref .guard) (own : w.own? (.node r) = some (a.guarded x g))

theorem Wears.of_own (h : Wears w r a) (ho : w'.own? (.node r) = w.own? (.node r)) :
    Wears w' r a := by
  cases h with
  | bare own => exact .bare (ho.trans own)
  | guarded x g own => exact .guarded x g (ho.trans own)

/-- To show something callable takes no wrapper. -/
theorem wrappers_reveal (v : Value) {m : Member} (hc : m.isCallable = true) :
    (w.reveal v m).2.wrappers = w.wrappers := by
  cases m with
  | value x | function n | bound n => rfl
  | number x | row items | listing items => cases hc

/-- A guard that is put on a value comes to no other node. -/
theorem own?_install_of_ne (obstruct : Obstruction ε) {v : Value} (hv : w.Open v) (g : Ref .guard)
    {r : Ref .node} (hvr : v ≠ .node r) :
    (World.install obstruct w g v).2.own? (.node r) = w.own? (.node r) := by
  rcases install_cases obstruct hv g with ⟨hrun, -⟩ | ⟨_, _, w', -, -, hrun, hstill, hothers, -⟩
  · rw [hrun]
  · rw [hrun]
    exact own?_of_carried hstill.toFrame (hothers r (.inl hvr))

/-- What a node carries after a guard has been put on it. -/
theorem install_own (obstruct : Obstruction ε) (hv : w.Open (.node r)) {m : Member}
    (hm : w.member (.node r) Node.acceptField = .ok m) (hc : m.isCallable = true)
    (ha : w.own? (.node r) = some a) (g : Ref .guard) :
    (install obstruct w g (.node r)).2.own? (.node r) =
      some (if a.has Node.guardField then a.set Node.guardField (.guard g)
        else a.guarded w.wrappers.next g) := by
  rcases install_cases obstruct hv g with ⟨-, hm'⟩ | ⟨m', b, w', hm', -, hrun, -, -, hnode⟩
  · simp [hm' m hm] at hc
  · obtain rfl : m' = m := by simpa using hm'.symm.trans hm
    have ha₁ : (w.reveal (.node r) m').2.own? (.node r) = some a :=
      (own?_of_nodes (still_reveal_callable hc).2 r).trans ha
    have hw := hnode r rfl (by simp [ha])
    simp only [hrun, hw, carried, ha, Option.getD_some]
    split
    · exact own?_modifyOwn_self ha₁ _
    · have hx : ((w.reveal (.node r) m').2.newWrapper (.node r)
          (w.reveal (.node r) m').1).2.own? (.node r) = some a := ha₁
      rw [← wrappers_reveal (.node r) hc]
      exact own?_modifyOwn_self (own?_modifyOwn_self hx _) _

/-- **A guard that is put on a node leaves all other attributes as they were**, whatever guards have
been put on the node before. -/
theorem Wears.install (h : Wears w r a) (h₀ : Receptive w₀ r a) {V : Value → Prop}
    (hf : Frame V w₀ w) (obstruct : Obstruction ε) (g : Ref .guard) :
    ∃ x, (World.install obstruct w g (.node r)).2.own? (.node r) = some (a.guarded x g) := by
  have hv := h₀.assignable.frame hf
  cases h with
  | bare own =>
    obtain ⟨m, hm, hc⟩ := h₀.callable
    have hsame : Untouched w₀ w (.node r) := .of_own (own.trans h₀.own.symm) (hf.nodes r)
    have hx := install_own obstruct hv (hsame.accept.trans hm) hc own g
    have huntagged : a.has Node.guardField = false := by simp [Attributes.has, h₀.untagged]
    rw [huntagged] at hx
    exact ⟨w.wrappers.next, hx⟩
  | guarded x g' own =>
    have hm : w.member (.node r) Node.acceptField = .ok (.value (.wrapper x)) :=
      member_of_carried rfl (by simp only [carried, own, Option.getD_some,
        Attributes.get?_accept_guarded])
    have hx' := install_own obstruct hv hm rfl own g
    rw [Attributes.has_guarded, if_pos rfl, Attributes.set_guarded] at hx'
    exact ⟨x, hx'⟩

theorem isGuarded_of_own {x : Ref .wrapper} {g : Ref .guard}
    (h : w.own? (.node r) = some (a.guarded x g)) : w.isGuarded (.node r) = true :=
  (isGuarded_eq h).trans Attributes.has_guarded

/-- **A guard that is taken off a node leaves nothing of what guards have put there**, and nothing
under the name of `accept`. It cannot be taken off again. -/
theorem uninstall_wears (h : Wears w r a) (ha : a.get? Node.guardField = none)
    (ht : w.isGuarded (.node r) = true) :
    ∃ w', w.uninstall (.node r) = (true, w') ∧ w'.uninstall (.node r) = (false, w') ∧
      w'.own? (.node r) = some (a.erase Node.acceptField) ∧ Still w w' ∧
      ∀ n, n ≠ r → w'.carried (.node n) = w.carried (.node n) := by
  cases h with
  | bare own =>
    rw [isGuarded_eq own, Attributes.has, ha] at ht
    cases ht
  | guarded x g own =>
    let w' := w.modifyOwn (.node r) fun a => (a.erase Node.guardField).erase Node.acceptField
    have hrun : w.uninstall (.node r) = (true, w') := by simp [uninstall, ht, w']
    have hown : w'.own? (.node r) = some (a.erase Node.acceptField) := by
      rw [own?_modifyOwn_self own, Attributes.erase_guarded ha]
    have huntagged : w'.isGuarded (.node r) = false := by
      rw [isGuarded_eq hown, Attributes.has, Attributes.get?_erase, if_neg (by decide), ha]
      rfl
    refine ⟨w', hrun, by simp [uninstall, huntagged], hown, ?_, fun n hn => ?_⟩
    · have hstill := (uninstall_run w (.node r)).1
      rwa [hrun] at hstill
    · have hne : (Value.node n) ≠ .node r := fun h => hn (Value.node.inj h)
      have hsame := carried_uninstall_of_ne (w := w) hne
      rwa [hrun] at hsame

/-- What a node shows that has no `accept` of its own any more: the one of its class, or none. -/
theorem member_of_erased (hown : w'.own? (.node r) = some (a.erase Node.acceptField))
    (hcls : (w'.nodes.get r).cls = (w.nodes.get r).cls) :
    w'.member (.node r) Node.acceptField =
      (w.classMember? (.node r) Node.acceptField).elim
        (.error (.missingAttribute (w.typeName (.node r)) Node.acceptField)) .ok := by
  rw [member_of_getter_none rfl]
  simp only [memberHere, hown, Option.getD_some, Attributes.get?_erase, if_true,
    classMember?_of_cls hcls, lackingName, typeName, hcls]
  cases w.classMember? (.node r) Node.acceptField <;> rfl

/-! ## What visits leave alone -/

/-- What guards that come to a node leave alone, and walks: everything but marks, and marks of other
nodes belong together as before. -/
structure Passes (r : Ref .node) (D : Ref .list → Prop) (w w' : World ε) : Prop
    extends Frame (fun _ => False) w w' where
  fields : ∀ n : Ref .node, ∀ name ∉ Node.marks,
    (w'.carried (.node n)).get? name = (w.carried (.node n)).get? name
  lists : ∀ l : Ref .list, D l → w'.items l = w.items l
  marked : ∀ n own, n ≠ r → w.Marked n own → w'.Marked n own

theorem Passes.refl (r : Ref .node) (D : Ref .list → Prop) (w : World ε) : Passes r D w w :=
  ⟨.refl _ w, fun _ _ _ => rfl, fun _ _ => rfl, fun _ _ _ h => h⟩

theorem Passes.trans {w₁ : World ε} (h : Passes r D w w₁) (h' : Passes r D w₁ w') :
    Passes r D w w' where
  toFrame := h.toFrame.trans h'.toFrame
  fields n name hn := (h'.fields n name hn).trans (h.fields n name hn)
  lists l hl := (h'.lists l hl).trans (h.lists l hl)
  marked n own hn hm := h'.marked n own hn (h.marked n own hn hm)

theorem Mild.passes (h : Mild w w') (hm : ∀ n own, n ≠ r → w.Marked n own → w'.Marked n own) :
    Passes r D w w' where
  toFrame := h.toFrame.mono fun _ hv => hv.elim
  fields n name hn := h.carried (.node n) rfl name hn
  lists l _ := by simp [items, h.lists]
  marked := hm

theorem Peaceful.passes (h : Peaceful X D w w') : Passes r D w w' where
  toFrame := h.toFrame.mono fun _ hv => hv.elim
  fields n name _ := by rw [carried_of_nodes h.sameNodes n]
  lists := h.lists
  marked _ _ _ := h.marked

/-- Apart from the node itself, what has passed finds objects for an agenda again. -/
theorem Passes.fits (h : Passes r D w w')
    (hr : ∀ own, w.Marked r own → w'.Marked r own) {strict : Bool} {A : Agenda κ}
    (hA : A.Fits strict D w) : A.Fits strict D w' := by
  refine hA.frame h.toFrame h.fields h.lists fun n own hn => ?_
  by_cases hnr : n = r
  · subst hnr
    exact hr own hn
  · exact h.marked n own hnr hn

/-! ## Visits -/

end World

/-- A value is handed out when something on an agenda is announced, as what the event is about. -/
def Agenda.Hands (v : Value) : Agenda κ → Prop
  | done => False
  | ask _ rest => rest.Hands v
  | entry _ args _ inner rest => args.head? = some v ∨ inner.Hands v ∨ rest.Hands v

/-- A guard is put on what is handed out. -/
theorem Agenda.Hands.guarded {v : Value} {A : Agenda κ} (h : A.Hands v) (X : Cast) :
    .guarded v ∈ A.occasions X := by
  induction A with
  | done => exact h.elim
  | ask c rest ih => exact List.mem_cons_of_mem _ (ih h)
  | entry e args source inner rest ihInner ih =>
    simp only [occasions, Cast.around, List.mem_append]
    rcases h with h | h | h
    · exact .inl (.inl (.inl (.inl (by simp [h]))))
    · exact .inl (.inl (.inr (ihInner h)))
    · exact .inr (ih h)

namespace Cast

variable {X : Cast} {F : Foreign ε κ} {D : Ref .list → Prop} {e : Event} {args : List Value}
  {A : Agenda κ} {w w' : World ε}

/-- Walks tell the same in two worlds and end in the same way, whoever walks and whatever the
observers do that leave nodes alone. -/
def WalksAlike (F : Foreign ε κ) (D : Ref .list → Prop) (w w' : World ε) : Prop :=
  ∀ (X : Cast) (verdict : List (Occasion κ) → Option Failure) (S S' : Surroundings ε κ) (e : Event)
    (args : List Value) (A : Agenda κ), X.SetsOut F D e args A w → X.Assembled w' →
    Held w' X .idle → X.Attended F D verdict S → X.Attended F D verdict S' →
    ∃ (o o' : Outcome) (σ σ' : Moment ε κ),
      S.Runs (Walk.send (.walker X.walker) (.entry e) args) (.start w) o σ ∧
      S'.Runs (Walk.send (.walker X.walker) (.entry e) args) (.start w') o' σ' ∧
      X.occasions σ'.calls = X.occasions σ.calls ∧ failure? o' = failure? o

/-- Where the same objects stand for all agendas, walks tell the same. -/
theorem walksAlike_of_fits
    (h : ∀ A : Agenda κ, A.Fits false D w → A.Fits false D w') :
    WalksAlike F D w w' := by
  intro X verdict S S' e args A hA hX hi hS hS'
  obtain ⟨o, σ, hruns, hheard, hend⟩ := hA.walk hS
  obtain ⟨o', σ', hruns', hheard', hend'⟩ :=
    ({ hA with assembled := hX, idle := hi, fits := h A hA.fits } :
      X.SetsOut F D e args A w').walk hS'
  exact ⟨o, o', σ, σ', hruns, hruns', hheard'.trans hheard.symm, hend'.trans hend.symm⟩

end Cast

namespace World

variable {F : Foreign ε κ} {D : Ref .list → Prop} {w₀ w w' : World ε} {r : Ref .node}
  {a : Attributes}

/-- A visit to a node: a guard is put on it, or a walker walks over it among observers who leave
nodes alone. -/
inductive Visits (F : Foreign ε κ) (D : Ref .list → Prop) (r : Ref .node) (w : World ε) :
    World ε → Prop where
  | install (g : Ref .guard) : Visits F D r w (World.install F.obstruct w g (.node r)).2
  | walk {X : Cast} {e : Event} {args : List Value} {A : Agenda κ} {S : Surroundings ε κ}
    {o : Outcome} {σ : Moment ε κ} (ready : X.SetsOut F D e args A w)
    (begins : X.timeout.outlastsTime = false) (meets : A.Hands (.node r))
    (passive : X.Attended F D (fun _ => none) S)
    (runs : S.Runs (Walk.send (.walker X.walker) (.entry e) args) (.start w) o σ) :
    Visits F D r w σ.world

/-- What visits to a node leave, given what it carried before. -/
structure Visited (r : Ref .node) (a : Attributes) (D : Ref .list → Prop) (w₀ w : World ε) : Prop
    extends Passes r D w₀ w where
  wears : Wears w r a

theorem Visited.passes (h : Visited r a D w₀ w) (hw : Passes r D w w')
    (ho : w'.own? (.node r) = w.own? (.node r)) : Visited r a D w₀ w' :=
  ⟨h.toPasses.trans hw, h.wears.of_own ho⟩

/-- A guard is put on the node or on something else. -/
theorem Visited.install (h : Visited r a D w₀ w) (h₀ : Receptive w₀ r a)
    (obstruct : Obstruction ε) (g : Ref .guard) {v : Value} (hv : w.Open v)
    (hm : ∀ n own, n ≠ r → w.Marked n own → (World.install obstruct w g v).2.Marked n own) :
    Visited r a D w₀ (World.install obstruct w g v).2 ∧
      (v = .node r ∨ w.isGuarded (.node r) = true →
        (World.install obstruct w g v).2.isGuarded (.node r) = true) := by
  have hstill := still_install obstruct hv g
  have hpasses : Passes r D w (World.install obstruct w g v).2 := hstill.toMild.passes hm
  by_cases hvr : v = .node r
  · subst hvr
    obtain ⟨x, hx⟩ := h.wears.install h₀ h.toFrame obstruct g
    exact ⟨⟨h.toPasses.trans hpasses, .guarded x g hx⟩, fun _ => isGuarded_of_own hx⟩
  · have hown := own?_install_of_ne obstruct hv g hvr
    refine ⟨h.passes hpasses hown, fun ht => ?_⟩
    rw [isGuarded, tag?, hown]
    exact ht.resolve_left hvr

/-- What visits to a node leave while a walk goes on over it: a guard answers for the node once the
walk has put one there. -/
def OnTheWay (r : Ref .node) (a : Attributes) (D : Ref .list → Prop) (w₀ w : World ε)
    (L : List (Occasion κ)) : Prop :=
  Visited r a D w₀ w ∧ (.guarded (.node r) ∈ L → w.isGuarded (.node r) = true)

/-- What leaves nodes alone leaves that as it is. -/
theorem OnTheWay.passes {L : List (Occasion κ)} (h : OnTheWay r a D w₀ w L)
    (hn : w'.nodes = w.nodes) (hp : Passes r D w w') : OnTheWay r a D w₀ w' L := by
  refine ⟨h.1.passes hp (own?_of_nodes hn r), fun hL => ?_⟩
  rw [isGuarded, tag?, own?_of_nodes hn r]
  exact h.2 hL

theorem OnTheWay.footstep {L : List (Occasion κ)} (h : OnTheWay r a D w₀ w L) {k : Ref .token}
    (hw : w.Footstep k w') : OnTheWay r a D w₀ w' L :=
  h.passes hw.sameNodes (hw.toMild.passes fun _ _ _ => hw.marked)

/-- A walk goes on over a node, among observers who leave nodes alone. -/
theorem hosts_visited {X : Cast} {e : Event} {args : List Value} {A : Agenda κ}
    {S : Surroundings ε κ} (h₀ : Receptive w₀ r a) (ready : X.SetsOut F D e args A w)
    (passive : X.Attended F D (fun _ => none) S) :
    (X.attended D A (OnTheWay r a D w₀) fun _ => none).Hosts F S := by
  refine passive.hosts ready.coded (fun w w' L hw hi => hi.passes hw.sameNodes hw.passes) ?_
    (fun w w' L hw hi => hi.footstep hw.toFootstep) ?_
  · intro w L x hx hi
    refine ⟨hi.1, fun hL => hi.2 ?_⟩
    rcases List.mem_append.1 hL with hL | hL
    · exact hL
    · obtain rfl := List.mem_singleton.1 hL
      cases hx
  · intro pins s n w L v hw hv hi
    obtain ⟨hvisited, htag⟩ := hi.1.install h₀ F.obstruct X.guard hv fun n own _ hn => by
      obtain ⟨b, w', hrun, -, hmarked⟩ := install_run F.obstruct hv hw.assembled.guardOpen
      rw [hrun]
      exact (hmarked n own hn).1
    refine ⟨hvisited, fun hL => htag ?_⟩
    rcases List.mem_append.1 hL with hL | hL
    · exact .inr (hi.2 hL)
    · have hvr := List.mem_singleton.1 hL
      exact .inl (Occasion.guarded.inj hvr).symm

/-- **After a visit to a node a guard answers for it**, and all else that the node carries is as
before. -/
theorem Visits.wears (h : Visits F D r w w') (h₀ : Receptive w₀ r a)
    (hw : Visited r a D w₀ w) : Visited r a D w₀ w' ∧ w'.isGuarded (.node r) = true := by
  cases h with
  | install g =>
    have hv := h₀.assignable.frame hw.toFrame
    obtain ⟨hvisited, htag⟩ := hw.install h₀ F.obstruct g hv fun n own hn hm => by
      rcases install_cases F.obstruct hv g with
        ⟨hrun, -⟩ | ⟨m, b, w', -, -, hrun, hstill, hothers, -⟩ <;> rw [hrun]
      · exact hm
      · exact hm.frame hstill.toFrame (hothers n (.inl fun h => hn (Value.node.inj h).symm))
    exact ⟨hvisited, htag (.inl rfl)⟩
  | @walk X e args A S o σ ready begins meets passive runs =>
    obtain ⟨source, inner, hwhole⟩ := ready.whole
    obtain ⟨o', σ', hruns, -, hg, -⟩ := (hosts_visited h₀ ready passive).walk
      (fun _ _ _ hfoot hi => hi.footstep hfoot) ready.announces hwhole (ready.going ⟨hw, by simp⟩)
    obtain ⟨rfl, rfl⟩ := hruns.unique runs
    refine ⟨hg.inv.1, hg.inv.2 ?_⟩
    have hfreely : X.timeout.outlastsTime = false := begins
    simp only [Setting.outcome, Cast.attended, hfreely, Bool.false_eq_true, if_false]
    rw [Setting.tell_of_verdict fun _ => rfl, List.nil_append]
    exact meets.guarded X

/-- What any visits to a node leave. -/
theorem visited_of_visits (h₀ : Receptive w₀ r a)
    (history : Relation.TransGen (Visits F D r) w₀ w) :
    Visited r a D w₀ w ∧ w.isGuarded (.node r) = true := by
  induction history with
  | single h => exact h.wears h₀ ⟨.refl r D w₀, .bare h₀.own⟩
  | tail _ h ih => exact h.wears h₀ ih.1

/-- **One uninstall after any visits to a node restores all that the node carried, but for its own
`accept`.** The guard is gone then, and a second uninstall does nothing. If the node had no `accept`
of its own, it carries and shows what it did before the first visit, and walks tell what they would
have told then. If it had one, that one is lost: the node shows what its class has, if it has
anything. -/
theorem uninstall_takes_accept (h₀ : Receptive w r a) {w₁ : World ε}
    (history : Relation.TransGen (Visits F D r) w w₁) :
    ∃ w', w₁.uninstall (.node r) = (true, w') ∧ w'.uninstall (.node r) = (false, w') ∧
      w'.own? (.node r) = some (a.erase Node.acceptField) ∧
      (a.erase Node.acceptField = a ↔ a.get? Node.acceptField = none) ∧
      (a.get? Node.acceptField = none → Untouched w w' (.node r) ∧ Cast.WalksAlike F D w w') ∧
      w'.member (.node r) Node.acceptField =
        (w.classMember? (.node r) Node.acceptField).elim
          (.error (.missingAttribute (w.typeName (.node r)) Node.acceptField)) .ok := by
  obtain ⟨hvisited, ht⟩ := visited_of_visits h₀ history
  obtain ⟨w', hrun, hagain, hown, hstill, hothers⟩ :=
    uninstall_wears hvisited.wears h₀.untagged ht
  have hpasses : Passes r D w w' :=
    hvisited.toPasses.trans (hstill.toMild.passes fun n own hn hm =>
      hm.frame hstill.toFrame (hothers n hn))
  refine ⟨w', hrun, hagain, hown, Attributes.erase_eq_self_iff, fun ha => ?_,
    member_of_erased hown (hpasses.nodes r)⟩
  have hsame : w'.own? (.node r) = w.own? (.node r) := by
    rw [hown, h₀.own, Attributes.erase_eq_self_iff.2 ha]
  refine ⟨.of_own hsame (hpasses.nodes r), Cast.walksAlike_of_fits fun A => hpasses.fits ?_⟩
  -- the node carries no marks, before the first visit and after the uninstall
  intro own hm
  have hbare : own = none := by
    rcases hm.marks with ⟨accept, -⟩ | ⟨x, g, inner, accept, -⟩
    · simp only [carried, h₀.own, Option.getD_some, ha] at accept
      exact Option.map_eq_none_iff.1 accept.symm
    · simp [carried, h₀.own, ha] at accept
  subst hbare
  refine ⟨fun hn => (understands_frame hpasses.toFrame r _).trans (hm.usual hn), .inl ?_⟩
  simp [carried, hsame, h₀.own, ha, h₀.untagged]

/-! ## A node with an `accept` of its own -/

open Bearer in
theorem receptive_bearer : world.Receptive ⟨0⟩ node.attributes where
  own := rfl
  untagged := by decide
  assignable name _ := rfl
  callable := ⟨.value (.ownAccept ⟨0⟩), rfl, rfl⟩

open Bearer in
/-- A node is walked over and gets another guard; when the guard is taken off, the node is left
without any `accept`. -/
theorem uninstall_takes_accept_of_bearer :
    ∃ w₁ w' : World Unit, Relation.TransGen (Visits code (fun _ => True) ⟨0⟩) world w₁ ∧
      world.own? (.node ⟨0⟩) = some [(Node.acceptField, .ownAccept ⟨0⟩)] ∧
      w₁.uninstall (.node ⟨0⟩) = (true, w') ∧ w'.own? (.node ⟨0⟩) = some [] ∧
      w'.member (.node ⟨0⟩) Node.acceptField =
        .error (.missingAttribute "Stub" Node.acceptField) := by
  have passive := cast.attended_quietly code (fun _ => True) fun _ => none
  obtain ⟨o, σ, runs, -⟩ := setsOut.walk passive
  have walk : Visits code (fun _ => True) ⟨0⟩ world σ.world :=
    .walk setsOut (by decide) (Or.inl rfl) passive runs
  have history := (Relation.TransGen.single walk).tail (.install ⟨0⟩)
  obtain ⟨w', hrun, -, hown, -, -, hmember⟩ := uninstall_takes_accept receptive_bearer history
  exact ⟨_, w', history, rfl, hrun, hown, hmember⟩

end World

end GuardedWalk
