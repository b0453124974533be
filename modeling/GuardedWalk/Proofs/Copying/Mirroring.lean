import GuardedWalk.Proofs.Copying.Deep
import GuardedWalk.Proofs.Copying.Written
import GuardedWalk.Proofs.World.Dressing

/-!
# Copies mirror what they are copies of

Whatever guards have come to the nodes of a document and have gone again, a copy looks like the
document did before there were any: it has the same objects, of the same classes and with the same
fields, and what is shared in the document is shared in the copy. A deep copy, or one that has been
written out and read back, is made of new objects only, so that neither a guard nor a node of the
document can be reached from it. A shallow copy shares everything with the document but its root.

## Main definitions

* `GuardedWalk.World.Mirrors` — a graph looks like a document did before.
* `GuardedWalk.Copying.Apart` — a graph of new objects without guards.
* `GuardedWalk.Copying.swap` — the copy of the root stands for the root.

## Main results

* `GuardedWalk.Copying.duplicable` — a document can be copied whatever guards are on it.
* `GuardedWalk.Copying.Twins.mirrors`, `Twins.apart` — what the twins of all objects of a document
  make up.
* `GuardedWalk.Copying.shallow_run`, `shallow_mirrors` — a shallow copy.
-/

set_option autoImplicit false

namespace GuardedWalk

variable {ε κ : Type} {D : Ref .list → Prop} {w₀ w w' : World ε} {root : Ref .node}

/-- A graph looks like a document did before it was guarded: what stands for the nodes and lists of
the document are different ones, of the same classes and with the same contents, and what stands for
plain data is the same. -/
structure World.Mirrors (w₀ w' : World ε) (root : Ref .node) (φ : Value → Value) : Prop where
  injective : ∀ u v, w₀.Reaches (.node root) u → w₀.Reaches (.node root) v → φ u = φ v → u = v
  plain : ∀ v, v.isPlain = true → φ v = v
  node : ∀ r, w₀.Reaches (.node root) (.node r) → ∃ r', φ (.node r) = .node r' ∧
    (w'.nodes.get r').cls = (w₀.nodes.get r).cls ∧
    (w'.nodes.get r').unguarded = (w₀.carried (.node r)).map fun p => (p.1, φ p.2)
  list : ∀ l, w₀.Reaches (.node root) (.list l) → ∃ l', φ (.list l) = .list l' ∧
    w'.items l' = (w₀.items l).map φ

namespace Copying

open World (Graph Dressed Mirrors Reaches)

/-- A graph is made of new objects: nothing can be reached from it but what stands for something in
the document, no node or list that was there before, and no node that is guarded or has an `accept`
of its own. -/
structure Apart (w₀ w w' : World ε) (root : Ref .node) (φ : Value → Value) : Prop where
  reached : ∀ x, w'.Reaches (φ (.node root)) x → ∃ v, w₀.Reaches (.node root) v ∧ φ v = x
  absent : ∀ x, w'.Reaches (φ (.node root)) x → Absent w x
  unmarked : ∀ r, w'.Reaches (φ (.node root)) (.node r) → ∀ name ∈ Node.marks,
    (w'.carried (.node r)).get? name = none

/-- A document can be copied whatever guards are on it. -/
theorem duplicable (h₀ : w₀.Graph root) (hw : Dressed D root w₀ w)
    (hlists : ∀ l, w₀.Reaches (.node root) (.list l) → D l)
    (hstores : ∀ v, w₀.Reaches (.node root) v → w.Stores v) (v : Value)
    (hv : w₀.Reaches (.node root) v) : Duplicable w (w₀.Reaches (.node root)) v := by
  cases h₀.constitutes v hv with
  | plain h => exact .plain h
  | @node r c cls distinct unmarked =>
    have hsame := hw.unguarded h₀ hv
    refine .node (hstores _ hv) ((hw.nodes r).trans cls) (by rwa [hsame]) fun p hp => ?_
    rw [hsame] at hp
    exact Graph.field hv hp
  | list l =>
    refine .list (hstores _ hv) fun y hy => ?_
    rw [hw.lists l (hlists l hv)] at hy
    exact Graph.item hv hy

theorem get?_map (f : Value → Value) (a : Attributes) (name : String) :
    Attributes.get? (a.map fun p => (p.1, f p.2)) name = (a.get? name).map f := by
  induction a with
  | nil => rfl
  | cons p rest ih =>
    obtain ⟨n, v⟩ := p
    simp only [Attributes.get?] at ih
    by_cases hn : name = n
    · simp [Attributes.get?, hn]
    · have hb : (name == n) = false := by simpa using hn
      simp [Attributes.get?, List.lookup_cons, hb, ih]

/-! ## Twins of all objects -/

section Twins

variable {m : Value → Option Value} (h₀ : w₀.Graph root) (hw : Dressed D root w₀ w)
  (hlists : ∀ l, w₀.Reaches (.node root) (.list l) → D l)
  (ht : Twins w (w₀.Reaches (.node root)) m w') (hgoes : Goes w .none (fun _ => none) w m w')
  (hroot : Known m (.node root))

include h₀ hw hlists hgoes hroot

/-- It is known what stands for each object of the document. -/
theorem known_of_reaches {v : Value} (hv : w₀.Reaches (.node root) v) : Known m v := by
  induction hv with
  | refl => exact hroot
  | @tail u x hu hx ih =>
    rcases ih with hplain | hsome
    · exact absurd hx (World.not_leads_of_plain hplain)
    · cases hgoes.done u rfl hsome with
      | @node r r' twin attributes known =>
        obtain ⟨name, hmem⟩ := World.leads_node.1 hx
        exact known (name, x) (by rwa [hw.unguarded h₀ hu])
      | @list l l' twin items known =>
        exact known x (by rw [hw.lists l (hlists l hu)]; exact World.leads_list.1 hx)

include ht

/-- The twin of a node of the document. -/
theorem twin_of_node {r : Ref .node} (hr : w₀.Reaches (.node root) (.node r)) :
    ∃ r', m (.node r) = some (.node r') ∧ w.nodes.cells.size ≤ r'.index ∧
      (w'.nodes.get r').cls = (w₀.nodes.get r).cls ∧
      (w'.nodes.get r').attributes = standAll m (w₀.carried (.node r)) := by
  have hknown := known_of_reaches h₀ hw hlists hgoes hroot hr
  cases hgoes.done _ rfl (hknown.resolve_left nofun) with
  | @node _ r' twin attributes known =>
    obtain ⟨-, htwin⟩ := ht.twin _ _ twin
    cases htwin with
    | node new stored cls =>
      exact ⟨r', twin, new, cls.trans (hw.nodes r), attributes.trans (by rw [hw.unguarded h₀ hr])⟩

/-- The twin of a list of the document. -/
theorem twin_of_list {l : Ref .list} (hl : w₀.Reaches (.node root) (.list l)) :
    ∃ l', m (.list l) = some (.list l') ∧ w.lists.cells.size ≤ l'.index ∧
      w'.items l' = (w₀.items l).map (stand m) := by
  have hknown := known_of_reaches h₀ hw hlists hgoes hroot hl
  cases hgoes.done _ rfl (hknown.resolve_left nofun) with
  | @list _ l' twin items known =>
    obtain ⟨-, htwin⟩ := ht.twin _ _ twin
    cases htwin with
    | list new stored => exact ⟨l', twin, new, items.trans (by rw [hw.lists l (hlists l hl)])⟩

/-- What stands for a node of the document carries no marks. -/
theorem twin_unmarked {r r' : Ref .node} (hr : w₀.Reaches (.node root) (.node r))
    (hr' : m (.node r) = some (.node r')) :
    ∃ c, (w'.nodes.get r').cls = .document c ∧
      w'.carried (.node r') = standAll m (w₀.carried (.node r)) ∧
      ∀ name ∈ Node.marks, (w'.carried (.node r')).get? name = none := by
  obtain ⟨r'', htwin, -, hcls, hattributes⟩ := twin_of_node h₀ hw hlists ht hgoes hroot hr
  obtain rfl : r'' = r' := Value.node.inj (Option.some.inj (htwin.symm.trans hr'))
  obtain ⟨c, hc⟩ := h₀.cls hr
  have hc' := hcls.trans hc
  refine ⟨c, hc', (World.carried_eq hc').trans hattributes, fun name hn => ?_⟩
  rw [World.carried_eq hc', hattributes, standAll, get?_map, h₀.unmarked hr hn]
  rfl

/-- What stands for a value of the document: plain data for themselves, twins for all else. -/
theorem stand_cases {v : Value} (hv : w₀.Reaches (.node root) v) :
    (v.isPlain = true ∧ stand m v = v) ∨
      (∃ r r', v = .node r ∧ m v = some (.node r') ∧ stand m v = .node r') ∨
      ∃ l l', v = .list l ∧ m v = some (.list l') ∧ stand m v = .list l' := by
  cases h₀.constitutes v hv with
  | plain h => exact .inl ⟨h, ht.stand_plain h⟩
  | @node r =>
    obtain ⟨r', htwin, -⟩ := twin_of_node h₀ hw hlists ht hgoes hroot hv
    exact .inr (.inl ⟨r, r', rfl, htwin, stand_of_some htwin⟩)
  | list l =>
    obtain ⟨l', htwin, -⟩ := twin_of_list h₀ hw hlists ht hgoes hroot hv
    exact .inr (.inr ⟨l, l', rfl, htwin, stand_of_some htwin⟩)

/-- **The twins of all objects of a document mirror the document.** -/
theorem Twins.mirrors : w₀.Mirrors w' root (stand m) where
  injective u v hu hv huv := by
    rcases stand_cases h₀ hw hlists ht hgoes hroot hu with
        ⟨hpu, hu⟩ | ⟨r, r', rfl, hmu, hu⟩ | ⟨l, l', rfl, hmu, hu⟩ <;>
      rcases stand_cases h₀ hw hlists ht hgoes hroot hv with
        ⟨hpv, hv⟩ | ⟨s, s', rfl, hmv, hv⟩ | ⟨k, k', rfl, hmv, hv⟩ <;>
      rw [hu, hv] at huv
    case inl.inl => exact huv
    case inr.inl.inr.inl => exact ht.injective _ _ _ hmu (huv ▸ hmv)
    case inr.inr.inr.inr => exact ht.injective _ _ _ hmu (huv ▸ hmv)
    all_goals cases huv <;> first | cases hpu | cases hpv
  plain v hv := ht.stand_plain hv
  node r hr := by
    obtain ⟨r', htwin, -, hcls, hattributes⟩ := twin_of_node h₀ hw hlists ht hgoes hroot hr
    obtain ⟨c, hc, hcarried, hunmarked⟩ := twin_unmarked h₀ hw hlists ht hgoes hroot hr htwin
    refine ⟨r', stand_of_some htwin, hcls, ?_⟩
    rw [World.unguarded_of_untagged hc (hunmarked _ Node.guardField_mem_marks), hcarried]
    rfl
  list l hl := by
    obtain ⟨l', htwin, -, hitems⟩ := twin_of_list h₀ hw hlists ht hgoes hroot hl
    exact ⟨l', stand_of_some htwin, hitems⟩

/-- Whatever can be reached from the copy stands for something in the document. -/
theorem Twins.reached {x : Value} (hx : w'.Reaches (stand m (.node root)) x) :
    ∃ v, w₀.Reaches (.node root) v ∧ stand m v = x := by
  induction hx with
  | refl => exact ⟨_, .refl, rfl⟩
  | @tail y x hy hx ih =>
    obtain ⟨v, hv, rfl⟩ := ih
    rcases stand_cases h₀ hw hlists ht hgoes hroot hv with
      ⟨hplain, hv'⟩ | ⟨r, r', rfl, hm, hv'⟩ | ⟨l, l', rfl, hm, hv'⟩ <;> rw [hv'] at hx
    · exact absurd hx (World.not_leads_of_plain hplain)
    · obtain ⟨name, hmem⟩ := World.leads_node.1 hx
      obtain ⟨-, -, hcarried, -⟩ := twin_unmarked h₀ hw hlists ht hgoes hroot hv hm
      rw [hcarried] at hmem
      obtain ⟨p, hp, hpx⟩ := List.mem_map.1 hmem
      exact ⟨p.2, Graph.field hv hp, congrArg Prod.snd hpx⟩
    · obtain ⟨l'', htwin, -, hitems⟩ := twin_of_list h₀ hw hlists ht hgoes hroot hv
      obtain rfl : l'' = l' := Value.list.inj (Option.some.inj (htwin.symm.trans hm))
      obtain ⟨y, hy, hyx⟩ := List.mem_map.1 (hitems ▸ World.leads_list.1 hx)
      exact ⟨y, Graph.item hv hy, hyx⟩

/-- **The twins of all objects of a document are apart from all that was there before.** -/
theorem Twins.apart : Apart w₀ w w' root (stand m) where
  reached x hx := Twins.reached h₀ hw hlists ht hgoes hroot hx
  absent x hx := by
    obtain ⟨v, hv, rfl⟩ := Twins.reached h₀ hw hlists ht hgoes hroot hx
    rcases stand_cases h₀ hw hlists ht hgoes hroot hv with
      ⟨hplain, hv'⟩ | ⟨r, r', rfl, hm, hv'⟩ | ⟨l, l', rfl, hm, hv'⟩ <;> rw [hv']
    · exact absent_of_plain w hplain
    · obtain ⟨r'', htwin, hnew, -⟩ := twin_of_node h₀ hw hlists ht hgoes hroot hv
      obtain rfl : r'' = r' := Value.node.inj (Option.some.inj (htwin.symm.trans hm))
      exact ⟨fun r h => by cases h; exact hnew, nofun⟩
    · obtain ⟨l'', htwin, hnew, -⟩ := twin_of_list h₀ hw hlists ht hgoes hroot hv
      obtain rfl : l'' = l' := Value.list.inj (Option.some.inj (htwin.symm.trans hm))
      exact ⟨nofun, fun l h => by cases h; exact hnew⟩
  unmarked r hr name hn := by
    obtain ⟨v, hv, hvr⟩ := Twins.reached h₀ hw hlists ht hgoes hroot hr
    rcases stand_cases h₀ hw hlists ht hgoes hroot hv with
      ⟨hplain, hv'⟩ | ⟨r₀, r', rfl, hm, hv'⟩ | ⟨l, l', rfl, hm, hv'⟩ <;> rw [hv'] at hvr
    · subst hvr
      cases hplain
    · cases hvr
      obtain ⟨-, -, -, hunmarked⟩ := twin_unmarked h₀ hw hlists ht hgoes hroot hv hm
      exact hunmarked name hn
    · cases hvr

end Twins

/-! ## Shallow copies -/

/-- The copy of the root stands for the root, and all else for itself. -/
def swap (root copy : Ref .node) (v : Value) : Value := if v = .node root then .node copy else v

/-- **A shallow copy of the root of a document** is a new node of the same class that carries what
the root carried before it was guarded. -/
theorem shallow_run (h₀ : w₀.Graph root) (hw : Dressed D root w₀ w) :
    ∃ w', (shallow (.node root) : Act ε Value).run w = (.ok (.node w.nodes.next), w') ∧
      Leaves .none w w' ∧ (∃ nodes lists, w' = { w with nodes := nodes, lists := lists }) ∧
      (w'.nodes.get w.nodes.next).cls = (w₀.nodes.get root).cls ∧
      (w'.nodes.get w.nodes.next).attributes = w₀.carried (.node root) := by
  let w₁ := (w.newNode ⟨(w.nodes.get root).cls, []⟩).2
  have hl := leaves_newNode w ⟨(w.nodes.get root).cls, []⟩
  have hset := leaves_modifyOwn w₁ w.nodes.next fun c =>
    (w₀.carried (.node root)).foldl (fun c p => c.set p.1 p.2) c
  refine ⟨_, ?_, ((hl.but _).trans hset).absent (absent_node w), ⟨_, _, rfl⟩, ?_, ?_⟩
  · have hhanded : handedOn w (.node root) = w₀.carried (.node root) := hw.unguarded h₀ .refl
    simp only [shallow, isShared, Bool.false_eq_true, if_false, blank, restore, Act.run_bind,
      Act.run_see, hhanded, Act.run_make, Act.run_change, Act.run_pure]
    rfl
  · rw [hset.cls _ (by simp [w₁, World.newNode, Store.add, Store.next]), ← hw.nodes root]
    refine (congrArg Node.cls (Store.get_add w.nodes _ _)).trans ?_
    rw [if_pos rfl]
  · exact attributes_restored (attributes_newNode (.refl .none w₁)) (h₀.distinct .refl)

/-- What lies inside a document is not its root and stands for itself. -/
theorem swap_inside (h₀ : w₀.Graph root) (copy : Ref .node) {v x : Value}
    (hv : w₀.Reaches (.node root) v) (hx : w₀.Leads v x) : swap root copy x = x :=
  if_neg (h₀.not_root (Relation.TransGen.tail' hv hx))

/-- **A shallow copy of the root, along with all else, mirrors the document.** -/
theorem shallow_mirrors (h₀ : w₀.Graph root) (hw : Dressed D root w₀ w)
    (hlists : ∀ l, w₀.Reaches (.node root) (.list l) → D l)
    (hstores : ∀ v, w₀.Reaches (.node root) v → w.Stores v) (hl : Leaves .none w w')
    (hcls : (w'.nodes.get w.nodes.next).cls = (w₀.nodes.get root).cls)
    (hattributes : (w'.nodes.get w.nodes.next).attributes = w₀.carried (.node root)) :
    w₀.Mirrors w' root (swap root w.nodes.next) := by
  have hnew : ∀ v, w₀.Reaches (.node root) v → v ≠ .node w.nodes.next := by
    rintro v hv rfl
    exact Nat.lt_irrefl _ (hstores _ hv)
  have hfields : ∀ r, w₀.Reaches (.node root) (.node r) →
      (w₀.carried (.node r)).map (fun p => (p.1, swap root w.nodes.next p.2)) =
        w₀.carried (.node r) := by
    intro r hr
    refine (List.map_congr_left fun p hp => ?_).trans (List.map_id _)
    rw [swap_inside h₀ _ hr (World.leads_node.2 ⟨p.1, hp⟩)]
    rfl
  refine ⟨fun u v hu hv huv => ?_, fun v hv => if_neg (by rintro rfl; cases hv), fun r hr => ?_,
    fun l hl' => ⟨l, rfl, ?_⟩⟩
  · by_cases hur : u = .node root <;> by_cases hvr : v = .node root <;>
      simp only [swap, hur, hvr, if_true, if_false] at huv ⊢
    · exact absurd huv.symm (hnew v hv)
    · exact absurd huv (hnew u hu)
    · exact huv
  · by_cases hr' : r = root
    · subst hr'
      refine ⟨w.nodes.next, if_pos rfl, hcls, ?_⟩
      obtain ⟨c, hc⟩ := h₀.cls hr
      have hcarried := (World.carried_eq (hcls.trans hc)).trans hattributes
      rw [hfields r hr, World.unguarded_of_untagged (hcls.trans hc), hcarried]
      rw [hcarried]
      exact h₀.unmarked hr Node.guardField_mem_marks
    · refine ⟨r, if_neg (fun h => hr' (Value.node.inj h)), ?_, ?_⟩
      · rw [hl.nodes r (hstores _ hr) nofun, hw.nodes r]
      · rw [hl.nodes r (hstores _ hr) nofun, hw.unguarded h₀ hr, hfields r hr]
  · rw [hl.lists l (hstores _ hl') nofun, hw.lists l (hlists l hl')]
    refine (List.map_id _).symm.trans (List.map_congr_left fun x hx => ?_)
    exact (swap_inside h₀ _ hl' (World.leads_list.2 hx)).symm

/-- The document itself mirrors what it was before it was guarded. -/
theorem mirrors_id (h₀ : w₀.Graph root) (hw : Dressed D root w₀ w)
    (hlists : ∀ l, w₀.Reaches (.node root) (.list l) → D l)
    (hstores : ∀ v, w₀.Reaches (.node root) v → w.Stores v) (hl : Leaves .none w w') :
    w₀.Mirrors w' root id where
  injective _ _ _ _ h := h
  plain _ _ := rfl
  node r hr := by
    refine ⟨r, rfl, ?_, ?_⟩
    · rw [hl.nodes r (hstores _ hr) nofun, hw.nodes r]
    · rw [hl.nodes r (hstores _ hr) nofun, hw.unguarded h₀ hr]
      exact (List.map_id _).symm
  list l hl' := by
    refine ⟨l, rfl, ?_⟩
    rw [hl.lists l (hstores _ hl') nofun, hw.lists l (hlists l hl'), List.map_id]

end Copying

end GuardedWalk
