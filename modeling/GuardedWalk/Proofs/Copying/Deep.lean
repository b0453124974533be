import GuardedWalk.Copying.Deep
import GuardedWalk.Proofs.Copying.Twins

/-!
# Deep copies of graphs

A deep copy gives a twin to each object of a graph, the first time that it comes across the object,
and puts into the twin what stands for the contents. By induction on how deep the copy may still go,
copying goes on in this way until all is done. An object gets its twin before its contents are
copied, so each object that is being copied has one, and a copy never goes deeper than there are
objects.

## Main definitions

* `GuardedWalk.Copying.Copies` — what copies each value of a graph.

## Main results

* `GuardedWalk.Copying.copyAll_run`, `copyItems_run` — values are copied one after the other.
* `GuardedWalk.Copying.deepWithin_copies` — a deep copy of a value.
* `GuardedWalk.Copying.deep_run` — a deep copy that starts from nothing.
-/

set_option autoImplicit false

namespace GuardedWalk

namespace Copying

open Act

variable {ε : Type} {b w : World ε} {G : Value → Prop} {P : Memo Value → Prop} {m : Memo Value}
  {copy : Value → Duplicating ε Value}

/-- What copies each value of a graph, as long as something holds of what is remembered: the copy is
what stands for the value then. -/
def Copies (b : World ε) (G : Value → Prop) (P : Memo Value → Prop)
    (copy : Value → Duplicating ε Value) : Prop :=
  ∀ m w v, Twins b G m.find? w → G v → P m → ∃ m' w',
    ((copy v).run m).run w = (.ok (stand m'.find? v, m'), w') ∧ Twins b G m'.find? w' ∧
    Goes b .none m.find? w m'.find? w' ∧ Known m'.find? v

/-- Values are copied one after the other. -/
theorem copyAll_run (hcopy : Copies b G P copy) (hP : Lasting P) :
    ∀ vs m w, Twins b G m.find? w → (∀ v ∈ vs, G v) → P m → ∃ m' w',
      ((copyAll copy vs).run m).run w = (.ok (vs.map (stand m'.find?), m'), w') ∧
      Twins b G m'.find? w' ∧ Goes b .none m.find? w m'.find? w' ∧ ∀ v ∈ vs, Known m'.find? v
  | [], m, w, ht, _, _ => ⟨m, w, rfl, ht, .refl _ _ w, nofun⟩
  | v :: rest, m, w, ht, hG, hm => by
    obtain ⟨m₁, w₁, hrun, ht₁, hgoes₁, hknown⟩ := hcopy m w v ht (hG v List.mem_cons_self) hm
    obtain ⟨m₂, w₂, hrest, ht₂, hgoes₂, hall⟩ := copyAll_run hcopy hP rest m₁ w₁ ht₁
      (fun u hu => hG u (List.mem_cons_of_mem v hu)) (hP m m₁ hgoes₁.names hm)
    refine ⟨m₂, w₂, ?_, ht₂, hgoes₁.trans hgoes₂ ht₁ ht₂ fun v _ => ht₁.ne_none, ?_⟩
    · simp only [copyAll, StateT.run_bind, run_bind, hrun, hrest, StateT.run_pure, run_pure,
        List.map_cons, stand_eq ht₁ ht₂ hgoes₂.names hknown]
    · rintro u (_ | ⟨_, hu⟩)
      · exact hknown.mono hgoes₂.names
      · exact hall u hu

/-- The attributes of an object are copied. -/
theorem copyAttributes_run (hcopy : Copies b G P copy) (hP : Lasting P) (a : Attributes)
    (ht : Twins b G m.find? w) (hG : ∀ p ∈ a, G p.2) (hm : P m) : ∃ m' w',
      ((copyAttributes copy a).run m).run w = (.ok (standAll m'.find? a, m'), w') ∧
      Twins b G m'.find? w' ∧ Goes b .none m.find? w m'.find? w' ∧
      ∀ p ∈ a, Known m'.find? p.2 := by
  obtain ⟨m', w', hrun, ht', hgoes, hknown⟩ :=
    copyAll_run hcopy hP (a.map (·.2)) m w ht (by simpa using fun v n h => hG (n, v) h) hm
  refine ⟨m', w', ?_, ht', hgoes, fun p hp => hknown _ (List.mem_map_of_mem hp)⟩
  simp only [copyAttributes, StateT.run_bind, run_bind, hrun, StateT.run_pure, run_pure,
    List.map_map, List.zip_map']
  rfl

/-- The elements of a list are copied to the end of its twin. -/
theorem copyItems_run (hcopy : Copies b G P copy) (hP : Lasting P) {l s : Ref .list} :
    ∀ vs m w, Twins b G m.find? w → m.find? (.list l) = some (.list s) → (∀ v ∈ vs, G v) → P m →
      ∃ m' w', ((copyItems copy s vs).run m).run w = (.ok ((), m'), w') ∧
        Twins b G m'.find? w' ∧ Goes b (.list s) m.find? w m'.find? w' ∧
        w'.items s = w.items s ++ vs.map (stand m'.find?) ∧ ∀ v ∈ vs, Known m'.find? v
  | [], m, w, ht, _, _, _ => ⟨m, w, rfl, ht, .refl _ _ w, by simp, nofun⟩
  | v :: rest, m, w, ht, hs, hG, hm => by
    obtain ⟨m₁, w₁, hrun, ht₁, hgoes₁, hknown⟩ := hcopy m w v ht (hG v List.mem_cons_self) hm
    have hs₁ := hgoes₁.names _ _ hs
    obtain ⟨-, htwin⟩ := ht.twin _ _ hs
    obtain ⟨-, htwin₁⟩ := ht₁.twin _ _ hs₁
    cases htwin with
    | list _ stored =>
    cases htwin₁ with
    | list new _ =>
    -- the twin of the list is the only object that changes
    have hpush := leaves_modifyList w₁ s (·.push (stand m₁.find? v))
    have ht₂ : Twins b G m₁.find? (w₁.push s (stand m₁.find? v)) :=
      ht₁.after hpush ⟨by simp, fun l h => by cases h; exact new⟩ ⟨_, _, rfl⟩
    obtain ⟨m₃, w₃, hrest, ht₃, hgoes₃, hitems, hall⟩ := copyItems_run hcopy hP rest m₁ _ ht₂ hs₁
      (fun u hu => hG u (List.mem_cons_of_mem v hu)) (hP m m₁ hgoes₁.names hm)
    refine ⟨m₃, w₃, ?_, ht₃, ?_, ?_, ?_⟩
    · simp only [copyItems, StateT.run_bind, run_bind, hrun]
      exact hrest
    · have hgoes₂ : Goes b (.list s) m.find? w m₁.find? (w₁.push s (stand m₁.find? v)) :=
        (hgoes₁.but _).trans (.of_leaves hpush) ht₁ ht₂ (hgoes₁.ne ht₁ hs)
      exact hgoes₂.trans hgoes₃ ht₂ ht₃ (hgoes₁.ne ht₁ hs)
    · have hget : (w₁.push s (stand m₁.find? v)).items s = w₁.items s ++ [stand m₁.find? v] := by
        simp [World.items, World.push, Store.get_modify]
      rw [hitems, hget, hgoes₁.leaves.lists s stored (by simp)]
      simp [stand_eq ht₁ ht₃ hgoes₃.names hknown]
    · rintro u (_ | ⟨_, hu⟩)
      · exact hknown.mono hgoes₃.names
      · exact hall u hu

/-! ## Objects -/

/-- A node gets its twin, then its attributes are copied, and what stands for them is put into the
twin in the end. -/
theorem copyNode_run (hcopy : Copies b G P copy) (hP : Lasting P) {r : Ref .node}
    (hv : G (.node r)) (stored : r.index < b.nodes.cells.size)
    (distinct : ((b.nodes.get r).unguarded.map Prod.fst).Nodup)
    (holds : ∀ p ∈ (b.nodes.get r).unguarded, G p.2) (ht : Twins b G m.find? w)
    (hnew : m.find? (.node r) = none) (hm : ∀ c, P (m.insert (.node r) c)) :
    ∃ m' w', ((copyObject copy (.node r)).run m).run w = (.ok (stand m'.find? (.node r), m'), w') ∧
      Twins b G m'.find? w' ∧ Goes b .none m.find? w m'.find? w' ∧ Known m'.find? (.node r) := by
  let x := w.nodes.next
  have hfind := fun u => m.find?_insert u (.node r) (.node x)
  have hl := leaves_newNode w ⟨(w.nodes.get r).cls, []⟩
  have ht₁ : Twins b G (m.insert (.node r) (.node x)).find? _ := ht.newNode hv stored hfind
  obtain ⟨m₂, w₂, hrun, ht₂, hgoes₂, hknown⟩ :=
    copyAttributes_run hcopy hP (b.nodes.get r).unguarded ht₁ holds (hm _)
  have hx₁ : (m.insert (.node r) (.node x)).find? (.node r) = some (.node x) := by
    rw [Memo.find?_insert, if_pos rfl]
  have hx₂ := hgoes₂.names _ _ hx₁
  let set (a : Attributes) := (standAll m₂.find? (b.nodes.get r).unguarded).foldl
    (fun a p => a.set p.1 p.2) a
  have hset := leaves_modifyOwn w₂ x set
  have ht₃ : Twins b G m₂.find? (w₂.modifyOwn (.node x) set) :=
    ht₂.after hset ((absent_node w).before ht.leaves) ⟨_, _, rfl⟩
  have hdone : Done b m₂.find? (w₂.modifyOwn (.node x) set) (.node r) :=
    .node hx₂ (attributes_restored (attributes_newNode hgoes₂.leaves)
      (by rwa [map_fst_standAll])) hknown
  refine ⟨m₂, _, ?_, ht₃, .finish hnew hfind hl (absent_node w) ?_ hdone, .inr (by simp [hx₂])⟩
  · have hold : w.nodes.get r = b.nodes.get r := ht.leaves.nodes r stored nofun
    have hhanded : handedOn w (.node r) = (b.nodes.get r).unguarded :=
      congrArg Node.unguarded hold
    simp only [copyObject, uncopyable?, remember, blank, restore, StateT.run_bind, run_bind,
      StateT.run_monadLift, monadLift_self, run_see, hhanded, run_pure, StateT.run_modify,
      run_make, StateT.run_pure, run_change, show ∀ n, (w.newNode n).1 = x from fun _ => rfl, hrun,
      stand_of_some hx₂]
    rfl
  · exact (hgoes₂.but _).trans (.of_leaves hset) ht₂ ht₃ (hgoes₂.ne ht₂ hx₁)

/-- A list gets its twin, to which what stands for its elements is added one by one. -/
theorem copyList_run (hcopy : Copies b G P copy) (hP : Lasting P) {l : Ref .list}
    (hv : G (.list l)) (stored : l.index < b.lists.cells.size) (holds : ∀ v ∈ b.items l, G v)
    (ht : Twins b G m.find? w) (hnew : m.find? (.list l) = none)
    (hm : ∀ c, P (m.insert (.list l) c)) :
    ∃ m' w', ((copyObject copy (.list l)).run m).run w = (.ok (stand m'.find? (.list l), m'), w') ∧
      Twins b G m'.find? w' ∧ Goes b .none m.find? w m'.find? w' ∧ Known m'.find? (.list l) := by
  let x := w.lists.next
  have hfind := fun u => m.find?_insert u (.list l) (.list x)
  have ht₁ : Twins b G (m.insert (.list l) (.list x)).find? (w.storeList []).2 :=
    ht.newList hv hfind
  have hx₁ : (m.insert (.list l) (.list x)).find? (.list l) = some (.list x) := by
    rw [Memo.find?_insert, if_pos rfl]
  obtain ⟨m₂, w₂, hrun, ht₂, hgoes₂, hitems, hknown⟩ :=
    copyItems_run hcopy hP (b.items l) _ _ ht₁ hx₁ holds (hm _)
  have hx₂ := hgoes₂.names _ _ hx₁
  refine ⟨m₂, w₂, ?_, ht₂, .finish hnew hfind (leaves_storeList w []) (absent_list w)
    hgoes₂ (.list hx₂ (by rw [hitems, items_storeList, List.nil_append]) hknown),
    .inr (by simp [hx₂])⟩
  have hold : w.items l = b.items l := ht.leaves.lists l stored nofun
  simp only [copyObject, remember, StateT.run_bind, run_bind, StateT.run_monadLift,
    monadLift_self, run_see, hold, run_pure, StateT.run_modify, run_make, StateT.run_pure,
    show (w.storeList []).1 = x from rfl, hrun, stand_of_some hx₂]

/-- An object gets its twin, and then what it holds is copied. -/
theorem copyObject_run (hb : ∀ v, G v → Duplicable b G v) (hcopy : Copies b G P copy)
    (hP : Lasting P) {v : Value} (hv : G v) (hplain : v.isPlain = false)
    (ht : Twins b G m.find? w) (hnew : m.find? v = none) (hm : ∀ c, P (m.insert v c)) :
    ∃ m' w', ((copyObject copy v).run m).run w = (.ok (stand m'.find? v, m'), w') ∧
      Twins b G m'.find? w' ∧ Goes b .none m.find? w m'.find? w' ∧ Known m'.find? v := by
  cases hb v hv with
  | plain h => simp [h] at hplain
  | node stored cls distinct holds =>
    exact copyNode_run hcopy hP hv stored distinct holds ht hnew hm
  | list stored holds => exact copyList_run hcopy hP hv stored holds ht hnew hm

/-! ## Any depth -/

/-- An object that has a twin is not copied again. -/
theorem deepWithin_recalled {v c : Value} (hs : isShared v = false) (hv : m.find? v = some c)
    (fuel : Nat) (begun : List (Value × Nat)) :
    (deepWithin fuel begun v : Duplicating ε Value).run m = pure (c, m) := by
  unfold deepWithin
  simp [hs, recalled?, hv]

/-- An object that has no twin is copied. -/
theorem deepWithin_new {v : Value} (hs : isShared v = false) (hv : m.find? v = none)
    {begun : List (Value × Nat)} (hl : begun.lookup v ≠ some m.size) (fuel : Nat) :
    (deepWithin (fuel + 1) begun v : Duplicating ε Value).run m =
      (copyObject (deepWithin fuel ((v, m.size) :: begun)) v).run m := by
  rw [deepWithin]
  simp [hs, recalled?, hv, hl]

/-- Where it is known what stands for a value, nothing is done. -/
theorem deepWithin_known (hb : ∀ v, G v → Duplicable b G v) {v : Value} (ht : Twins b G m.find? w)
    (hv : G v) (hknown : Known m.find? v) (fuel : Nat) (begun : List (Value × Nat)) :
    ∃ m' w', ((deepWithin fuel begun v).run m).run w = (.ok (stand m'.find? v, m'), w') ∧
      Twins b G m'.find? w' ∧ Goes b .none m.find? w m'.find? w' ∧ Known m'.find? v := by
  refine ⟨m, w, ?_, ht, .refl _ _ w, hknown⟩
  cases hplain : v.isPlain with
  | true =>
    rw [deepWithin_shared (isShared_of_plain hplain), ht.stand_plain hplain]
    rfl
  | false =>
    obtain ⟨c, hc⟩ := Option.isSome_iff_exists.1 (hknown.resolve_left (by simp [hplain]))
    rw [deepWithin_recalled ((hb v hv).isShared_eq hplain) hc, stand_of_some hc]
    rfl

/-- **A deep copy of a value is what stands for the value**, with all twins that are made on the way
done in the end. -/
theorem deepWithin_copies (hb : ∀ v, G v → Duplicable b G v) (fuel : Nat) :
    ∀ begun, Copies b G (Ready b fuel begun) (deepWithin fuel begun) := by
  induction fuel with
  | zero =>
    intro begun m w v ht hv hm
    by_cases hknown : Known m.find? v
    · exact deepWithin_known hb ht hv hknown 0 begun
    · simp only [Known, not_or, Bool.not_eq_true, Option.isSome_eq_false_iff,
        Option.isNone_iff_eq_none] at hknown
      -- fuel is left for each object that has no twin, so there is none
      obtain ⟨fuel, hfuel, -⟩ := hm.insert hb hv hknown.1 hknown.2 .none 0
      cases hfuel
  | succ fuel ih =>
    intro begun m w v ht hv hm
    by_cases hknown : Known m.find? v
    · exact deepWithin_known hb ht hv hknown (fuel + 1) begun
    · simp only [Known, not_or, Bool.not_eq_true, Option.isSome_eq_false_iff,
        Option.isNone_iff_eq_none] at hknown
      obtain ⟨hplain, hnew⟩ := hknown
      rw [deepWithin_new ((hb v hv).isShared_eq hplain) hnew (hm.lookup hnew _)]
      refine copyObject_run hb (ih ((v, m.size) :: begun)) (lasting_ready b fuel _) hv hplain ht
        hnew fun c => ?_
      obtain ⟨fuel', hfuel, hready⟩ := hm.insert hb hv hplain hnew c m.size
      obtain rfl := Nat.succ.inj hfuel
      exact hready

/-- **A deep copy that starts from nothing** comes to an end. -/
theorem deep_run (hb : ∀ v, G v → Duplicable b G v) {v : Value} (hv : G v) :
    ∃ m w, (deep v : Act ε Value).run b = (.ok (stand m v), w) ∧ Twins b G m w ∧
      Goes b .none (fun _ => none) b m w ∧ Known m v := by
  have hempty : (Memo.empty : Memo Value).find? = fun _ => none := funext Memo.find?_empty
  obtain ⟨m, w, hrun, ht', hgoes, hknown⟩ :=
    deepWithin_copies hb (b.extent * b.extent) [] .empty b v (hempty ▸ Twins.start b G) hv
      ⟨spare_le b _, nofun⟩
  rw [hempty] at hgoes
  refine ⟨m.find?, w, ?_, ht', hgoes, hknown⟩
  simp only [deep, run_bind, run_see, hrun, run_pure]

end Copying

end GuardedWalk
