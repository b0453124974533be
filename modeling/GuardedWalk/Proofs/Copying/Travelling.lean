import GuardedWalk.Proofs.Walk.Echoing

/-!
# Guards do not travel

A document is copied while guards are on its nodes, whichever have come there and whoever has walked
over it. The copy is as if there had never been any guards: it has the same shape, and no way leads
from it to a node of the document, to a guard or to a walker. A walk over the copy says the same as
a walk over the document, and leaves the document alone. A shallow copy is a new root without a
guard, above all that the old one consists of.

## Main definitions

* `GuardedWalk.Copying.Faithful` — a copy of a document has its shape, and nothing else has changed.

## Main results

* `GuardedWalk.World.Mirrors.reaches` — what is part of a document is part of its copy.
* `GuardedWalk.Copying.guards_do_not_travel` — copies of a document, and walks over them.
-/

set_option autoImplicit false

namespace GuardedWalk

variable {ε κ : Type} {D : Ref .list → Prop} {w₀ w w' : World ε} {root : Ref .node}
  {φ : Value → Value}

namespace World

theorem mem_of_mem_unguarded {n : Node} {p : String × Value} (hp : p ∈ n.unguarded) :
    p ∈ n.attributes := by
  unfold Node.unguarded at hp
  split at hp
  · split at hp
    · exact hp
    · exact (List.mem_filter.1 hp).1
    · exact (List.mem_filter.1 (List.mem_filter.1 hp).1).1
  · exact hp

/-- Whatever stands for a part of a document can be reached from what stands for its root. -/
theorem Mirrors.reaches (h : w₀.Mirrors w' root φ) (h₀ : w₀.Graph root) {v : Value}
    (hv : w₀.Reaches (.node root) v) : w'.Reaches (φ (.node root)) (φ v) := by
  induction hv with
  | refl => exact .refl
  | @tail u x hu hx ih =>
    refine ih.tail ?_
    cases h₀.constitutes u hu with
    | plain hplain => exact absurd hx (not_leads_of_plain hplain)
    | @node r c cls =>
      obtain ⟨name, hmem⟩ := leads_node.1 hx
      obtain ⟨r', hr', hcls, hattributes⟩ := h.node r hu
      have hmem' : (name, φ x) ∈ (w'.nodes.get r').unguarded := by
        rw [hattributes]
        exact List.mem_map.2 ⟨(name, x), hmem, rfl⟩
      rw [hr']
      exact leads_node.2 ⟨name, carried_eq (hcls.trans cls) ▸ mem_of_mem_unguarded hmem'⟩
    | list l =>
      obtain ⟨l', hl', hitems⟩ := h.list l hu
      rw [hl', leads_list, hitems]
      exact List.mem_map.2 ⟨x, leads_list.1 hx, rfl⟩

/-- Marks that belong together still do when nodes and lists have been added. -/
theorem Marked.of_added {r : Ref .node} {own : Option (Ref .node)} (h : w.Marked r own)
    (hrest : ∃ nodes lists, w' = { w with nodes := nodes, lists := lists })
    (hnode : w'.nodes.get r = w.nodes.get r) : w'.Marked r own := by
  obtain ⟨nodes, lists, rfl⟩ := hrest
  have hcarried : World.carried { w with nodes := nodes, lists := lists } (.node r) =
      w.carried (.node r) := by
    simp only [carried, own?, hnode]
  refine ⟨fun ho => ?_, ?_⟩
  · have husual := h.usual ho
    simpa only [understands, hnode] using husual
  · rw [hcarried]
    cases own with
    | none => exact h.marks
    | some n => exact h.marks

end World

namespace Copying

open World (Graph Dressed Mirrors WalkedAlike)

/-- A copy has the shape that a document had before it was guarded. It has been made of new nodes
and lists, if any, and of what was there before, and nothing else has changed. -/
structure Faithful (w₀ w w' : World ε) (root : Ref .node) (φ : Value → Value) : Prop where
  leaves : Leaves .none w w'
  rest : ∃ nodes lists, w' = { w with nodes := nodes, lists := lists }
  mirrors : w₀.Mirrors w' root φ
  reaches : ∀ v, w₀.Reaches (.node root) v → w'.Reaches (φ (.node root)) (φ v)

/-! ## Walkers beside copies -/

/-- A walker is still put together as it was made. -/
theorem Faithful.assembled (h : Faithful w₀ w w' root φ) {X : Cast} (hX : X.Assembled w) :
    X.Assembled w' := by
  obtain ⟨nodes, lists, rfl⟩ := h.rest
  exact ⟨hX.ownership, hX.ownGuard, hX.broadcast, hX.guardWalker, hX.guardToken, hX.adapterGuard,
    hX.adapterNotified, hX.inTuples, hX.notified, hX.walkerOpen, hX.guardOpen, hX.adapterOpen,
    hX.timeout, hX.events⟩

/-- A walker that does not walk still does not. -/
theorem Faithful.held (h : Faithful w₀ w w' root φ) {X : Cast} (hX : Held w X .idle) :
    Held w' X .idle := by
  obtain ⟨nodes, lists, rfl⟩ := h.rest
  obtain ⟨hunhidden, x, hshows, htimeout, hidle⟩ := hX
  refine ⟨hunhidden, x, ⟨hshows.session, hshows.depth, hshows.generation, hshows.waiting,
    hshows.condition, hshows.asleep, hshows.timeout, fun s t hst => ?_⟩, htimeout, hidle⟩
  have hidle : x.owner = none := hidle
  rw [hidle] at hst
  cases hst

/-! ## Copies -/

section Copies

variable (h₀ : w₀.Graph root) (hw : Dressed D root w₀ w)
  (hlists : ∀ l, w₀.Reaches (.node root) (.list l) → D l)
  (hstores : ∀ v, w₀.Reaches (.node root) v → w.Stores v)

include h₀ hw hstores

/-- The marks of a document belong together, after it has been copied as before. -/
theorem Faithful.marked (h : Faithful w₀ w w' root φ) {r : Ref .node}
    (hr : w₀.Reaches (.node root) (.node r)) : w'.Marked r none :=
  (hw.toCalm.marked r (h₀.marked hr)).of_added h.rest (h.leaves.nodes r (hstores _ hr) nofun)

omit h₀ hw in
/-- No node of a document can be reached from a copy that is apart from it. -/
theorem Apart.not_reaches (h : Apart w₀ w w' root φ) {r : Ref .node}
    (hr : w₀.Reaches (.node root) (.node r)) : ¬ w'.Reaches (φ (.node root)) (.node r) :=
  fun hreach => Nat.not_le_of_lt (hstores _ hr) ((h.absent _ hreach).1 r rfl)

include hlists

/-- A copy of all objects of a document, and walks over it. -/
theorem copies_apart {copy : Value → Act ε Value}
    (hcopy : ∃ m w', (copy (.node root)).run w = (.ok (stand m (.node root)), w') ∧
      Twins w (w₀.Reaches (.node root)) m w' ∧ Goes w .none (fun _ => none) w m w' ∧
      Known m (.node root)) (F : Foreign ε κ) :
    ∃ φ w', (copy (.node root)).run w = (.ok (φ (.node root)), w') ∧ Faithful w₀ w w' root φ ∧
      Apart w₀ w w' root φ ∧ WalkedAlike F w₀ w' root φ fun r =>
        ¬ w'.Reaches (φ (.node root)) (.node r) ∨ w₀.Reaches (.node root) (.node r) := by
  obtain ⟨m, w', hrun, ht, hgoes, hroot⟩ := hcopy
  have hmirrors := Twins.mirrors h₀ hw hlists ht hgoes hroot
  have hfaithful : Faithful w₀ w w' root (stand m) :=
    ⟨hgoes.leaves, ht.rest, hmirrors, fun v hv => hmirrors.reaches h₀ hv⟩
  have hapart := Twins.apart h₀ hw hlists ht hgoes hroot
  refine ⟨stand m, w', hrun, hfaithful, hapart,
    hmirrors.walkedAlike (mirrors_id h₀ hw hlists hstores hgoes.leaves) h₀ (fun r r' hr hr' => ?_)
      (fun r hr => hfaithful.marked h₀ hw hstores hr) (fun r hspared v hv hvr => ?_) F⟩
  · have hreach := hfaithful.reaches _ hr
    rw [hr'] at hreach
    obtain ⟨c, hc⟩ := h₀.cls hr
    obtain ⟨r'', hr'', hcls, -⟩ := hmirrors.node r hr
    obtain rfl := Value.node.inj (hr''.symm.trans hr')
    exact World.marked_of_unmarked (hcls.trans hc) (hapart.unmarked _ hreach)
  · have hreach := hfaithful.reaches v hv
    rw [hvr] at hreach
    rcases hspared with hnot | hr
    · exact hnot hreach
    · exact hapart.not_reaches hstores hr hreach

/-- A copy of nothing but the root of a document, and walks over it. -/
theorem shallow_copies (F : Foreign ε κ) :
    ∃ copy w', (shallow (.node root) : Act ε Value).run w = (.ok (.node copy), w') ∧
      Faithful w₀ w w' root (swap root copy) ∧ Absent w (.node copy) ∧
      (w'.nodes.get copy).cls = (w₀.nodes.get root).cls ∧
      w'.carried (.node copy) = w₀.carried (.node root) ∧
      (∀ name ∈ Node.marks, (w'.carried (.node copy)).get? name = none) ∧
      WalkedAlike F w₀ w' root (swap root copy) fun r =>
        ¬ w'.Reaches (.node copy) (.node r) ∨ r = root := by
  obtain ⟨w', hrun, hleaves, hrest, hcls, hattributes⟩ := shallow_run h₀ hw
  have hmirrors := shallow_mirrors h₀ hw hlists hstores hleaves hcls hattributes
  have hfaithful : Faithful w₀ w w' root (swap root w.nodes.next) :=
    ⟨hleaves, hrest, hmirrors, fun v hv => hmirrors.reaches h₀ hv⟩
  obtain ⟨c, hc⟩ := h₀.cls .refl
  have hcarried : w'.carried (.node w.nodes.next) = w₀.carried (.node root) :=
    (World.carried_eq (hcls.trans hc)).trans hattributes
  have hunmarked : ∀ name ∈ Node.marks, (w'.carried (.node w.nodes.next)).get? name = none := by
    rw [hcarried]
    exact fun _ => h₀.unmarked .refl
  have hroot : swap root w.nodes.next (.node root) = .node w.nodes.next := if_pos rfl
  refine ⟨w.nodes.next, w', hrun, hfaithful, absent_node w, hcls, hcarried, hunmarked,
    hmirrors.walkedAlike (mirrors_id h₀ hw hlists hstores hleaves) h₀ (fun r r' hr hr' => ?_)
      (fun r hr => hfaithful.marked h₀ hw hstores hr) (fun r hspared v hv hvr => ?_) F⟩
  · by_cases hrr : r = root
    · obtain rfl := Value.node.inj (hroot.symm.trans (hrr ▸ hr'))
      exact World.marked_of_unmarked (hcls.trans hc) hunmarked
    · obtain rfl := Value.node.inj ((if_neg fun h => hrr (Value.node.inj h)).symm.trans hr')
      exact hfaithful.marked h₀ hw hstores hr
  · rcases hspared with hnot | rfl
    · have hreach := hfaithful.reaches v hv
      rw [hvr, hroot] at hreach
      exact hnot hreach
    · by_cases hvroot : v = .node r
      · rw [hvroot, hroot] at hvr
        have hlt : w.nodes.next.index < w.nodes.cells.size := Value.node.inj hvr ▸ hstores _ .refl
        exact Nat.lt_irrefl _ hlt
      · rw [swap, if_neg hvroot] at hvr
        exact hvroot hvr

end Copies

/-- **Guards do not travel.** A document that has never been guarded is given, without loops, in
which parts may be shared; its objects are there and others leave its lists alone. Whatever guards
have come to its nodes and have gone, and whoever has walked over it, a deep copy and one that has
been written out and read back have the shape of the document. No node of the copy is guarded, and
no node that was there before can be reached from it. A shallow copy of the root has the same fields
with the same contents and no guard. Whoever walks over a copy says what a walk over the document
says, with copies in the place of nodes. Guards come to nothing but what can be reached from the
copy, and the document is left as it was; with a shallow copy, its root is. -/
theorem guards_do_not_travel {F : Foreign ε κ} (h₀ : w₀.Graph root)
    (history : World.History F D w₀ w)
    (hlists : ∀ l, w₀.Reaches (.node root) (.list l) → D l)
    (hstores : ∀ v, w₀.Reaches (.node root) v → w.Stores v) :
    (∀ copy ∈ [deep, written], ∃ φ w',
      (copy (.node root) : Act ε Value).run w = (.ok (φ (.node root)), w') ∧
      Faithful w₀ w w' root φ ∧ Apart w₀ w w' root φ ∧
      WalkedAlike F w₀ w' root φ fun r =>
        ¬ w'.Reaches (φ (.node root)) (.node r) ∨ w₀.Reaches (.node root) (.node r)) ∧
    ∃ copy w', (shallow (.node root) : Act ε Value).run w = (.ok (.node copy), w') ∧
      Faithful w₀ w w' root (swap root copy) ∧ Absent w (.node copy) ∧
      (w'.nodes.get copy).cls = (w₀.nodes.get root).cls ∧
      w'.carried (.node copy) = w₀.carried (.node root) ∧
      (∀ name ∈ Node.marks, (w'.carried (.node copy)).get? name = none) ∧
      WalkedAlike F w₀ w' root (swap root copy) fun r =>
        ¬ w'.Reaches (.node copy) (.node r) ∨ r = root := by
  have hw := h₀.dressed history
  have hduplicable := duplicable h₀ hw hlists hstores
  refine ⟨fun copy hcopy => ?_, shallow_copies h₀ hw hlists hstores F⟩
  rcases List.mem_cons.1 hcopy with rfl | hcopy
  · exact copies_apart h₀ hw hlists hstores (deep_run hduplicable .refl) F
  · obtain rfl := List.mem_singleton.1 hcopy
    exact copies_apart h₀ hw hlists hstores (written_run hduplicable .refl) F

/-! ## A small document -/

namespace Parcel

open Cast.Crowd

/-- What the small document consists of. -/
def inside : Value → Bool
  | .node r => r.index < 7
  | .list l => l.index < 4
  | v => v.isPlain

/-- How far up in the small document something is. -/
def rank : Value → Nat
  | .node r => 3 * (7 - r.index) + 2
  | .list l => [21, 18, 12, 3].getD l.index 0
  | _ => 0

theorem leads_inside {v x : Value} (hv : inside v = true) (hx : calm.Leads v x) :
    inside x = true ∧ rank x < rank v := by
  have hnodes : ∀ r < 7, ∀ p ∈ calm.carried (.node ⟨r⟩),
      inside p.2 = true ∧ rank p.2 < rank (.node ⟨r⟩) := by decide
  have hlists : ∀ l < 4, ∀ y ∈ calm.items ⟨l⟩, inside y = true ∧ rank y < rank (.list ⟨l⟩) := by
    decide
  match v, hv with
  | .node r, hr =>
    obtain ⟨name, hmem⟩ := World.leads_node.1 hx
    exact hnodes r.index (of_decide_eq_true hr) _ hmem
  | .list l, hl => exact hlists l.index (of_decide_eq_true hl) _ (World.leads_list.1 hx)
  | .none, hv | .bool _, hv | .int _, hv | .float _, hv | .text _, hv | .mode _, hv
  | .event _, hv => exact absurd hx (World.not_leads_of_plain hv)

theorem graph : calm.Graph ⟨0⟩ := by
  have hcls : ∀ r < 7, ∃ c ∈ DocumentClass.all, (calm.nodes.get ⟨r⟩).cls = .document c := by decide
  have hnodes : ∀ r < 7, ((calm.carried (.node ⟨r⟩)).map Prod.fst).Nodup ∧
      ∀ name ∈ Node.marks, (calm.carried (.node ⟨r⟩)).get? name = none := by decide
  refine .of_rank rank (show inside (.node ⟨0⟩) = true by rfl) (fun v hv => ?_) fun v x =>
    leads_inside
  match v, hv with
  | .node r, hr =>
    have hr : r.index < 7 := of_decide_eq_true hr
    obtain ⟨c, -, hc⟩ := hcls r.index hr
    obtain ⟨hdistinct, hunmarked⟩ := hnodes r.index hr
    exact .node hc hdistinct hunmarked
  | .list l, _ => exact .list l
  | .none, hv | .bool _, hv | .int _, hv | .float _, hv | .text _, hv | .mode _, hv
  | .event _, hv => exact .plain hv

theorem happens_tag (D : Ref .list → Prop) (v : World Unit) (r : Ref .node) :
    World.History foreign D v (tag v r) := by
  unfold tag
  split
  · rename_i h
    exact .single (.install guard h.2.open (World.unhidden_of_names h.1))
  · exact .refl

/-- The guard of another walker has come to two nodes and has been taken off one of them. -/
theorem happens_tagged (D : Ref .list → Prop) : World.History foreign D calm tagged :=
  ((happens_tag D calm ⟨1⟩).trans (happens_tag D _ ⟨4⟩)).tail (.uninstall _)

theorem stores_tagged {v : Value} (hv : calm.Reaches (.node ⟨0⟩) v) : tagged.Stores v := by
  have hsize : tagged.nodes.cells.size = 7 ∧ tagged.lists.cells.size = 4 := by decide
  have hinside : inside v = true := by
    induction hv with
    | refl => rfl
    | tail _ hx ih => exact (leads_inside ih hx).1
  cases v with
  | node r => exact Nat.lt_of_lt_of_eq (of_decide_eq_true hinside) hsize.1.symm
  | list l => exact Nat.lt_of_lt_of_eq (of_decide_eq_true hinside) hsize.2.symm
  | _ => trivial

end Parcel

open Cast.Crowd Parcel in
/-- The small document is copied while there is a guard on one of its nodes. A walker tells its
observer the same of the copy as of the document, and puts no guard on the document. -/
theorem guards_do_not_travel_in_small_document :
    tagged.isGuarded (.node ⟨4⟩) = true ∧
    ∃ (φ : Value → Value) (w' : World Unit) (o o' : Outcome) (σ σ' : Moment Unit Empty),
      (deep (.node ⟨0⟩) : Act Unit Value).run tagged = (.ok (φ (.node ⟨0⟩)), w') ∧
      Apart calm tagged w' ⟨0⟩ φ ∧
      (cast.quietly foreign fun _ => none).Runs
        (Walk.send (.walker cast.walker) (.entry .features) [.node ⟨0⟩]) (.start w') o σ ∧
      (cast.quietly foreign fun _ => none).Runs
        (Walk.send (.walker cast.walker) (.entry .features) [φ (.node ⟨0⟩)]) (.start w') o' σ' ∧
      cast.occasions σ'.calls = (cast.occasions σ.calls).map (Occasion.map φ) ∧
      failure? o' = failure? o ∧
      ∀ r : Ref .node, r.index < 7 → σ'.world.own? (.node r) = w'.own? (.node r) := by
  refine ⟨by decide, ?_⟩
  obtain ⟨hcopies, -⟩ := guards_do_not_travel graph (happens_tagged fun _ => True)
    (fun _ _ => trivial) fun _ => stores_tagged
  obtain ⟨φ, w', hrun, hfaithful, hapart, halike⟩ := hcopies deep (List.mem_cons_self ..)
  have hX : cast.Assembled w' :=
    hfaithful.assembled (assembled.frame frame_tagged fun v hv => .inl hv)
  have hidle : Held w' cast .idle :=
    hfaithful.held (held.frame frame_tagged (frame_tagged.carried _ (.inr rfl)))
  have hpristine : Document.login.Pristine (fun _ => True) calm := by constructor <;> decide
  have hattended := Cast.attended_quietly cast foreign (fun _ => True) fun _ => none
  obtain ⟨o, o', σ, σ', hruns, hruns', hheard, ho, hspared⟩ := halike cast (fun _ => True) .features
    _ _ (fun _ => none) (fun _ => none) _ _ w' w' nofun (hpristine.fits.entered rfl)
    (fun _ _ => ⟨trivial, fun _ _ => trivial⟩) (.refl _ _) hX hidle hattended (.refl _ _) hX hidle
    hattended fun _ _ => rfl
  refine ⟨φ, w', o, o', σ, σ', hrun, hapart, hruns, hruns', hheard, ho, fun r hr =>
    hspared r (.inl fun hreach => ?_)⟩
  have hnew : tagged.nodes.cells.size ≤ r.index := (hapart.absent _ hreach).1 r rfl
  exact Nat.not_le_of_lt hr (Nat.le_trans (by decide) hnew)

end Copying

end GuardedWalk
