import GuardedWalk.Copying.Written
import GuardedWalk.Proofs.Copying.Twins

/-!
# Graphs that are written out and read back

A graph is written as instructions before anything is built of it. While it is written, each object
gets a number, and while it is built, the twin of the object gets the same one. So whatever has been
written of a graph so far, the instructions for the rest build twins of all that has not been
numbered until then, and put what stands for the written value on the stack.

## Main definitions

* `GuardedWalk.Copying.named` — what has been built of the objects that are numbered.
* `GuardedWalk.Copying.Builds` — instructions that build what stands for some values.
* `GuardedWalk.Copying.Writes` — what writes each value of a graph.

## Main results

* `GuardedWalk.Copying.Builds.append` — values are built one after the other.
* `GuardedWalk.Copying.builds_node`, `builds_list` — the instructions for an object.
* `GuardedWalk.Copying.writeWithin_writes` — the instructions for a value.
* `GuardedWalk.Copying.written_run` — a graph that is written out and read back.
-/

set_option autoImplicit false

namespace GuardedWalk

namespace Copying

open Act

variable {ε : Type} {b w w' : World ε} {G : Value → Prop} {P : Memo Nat → Prop}
  {μ μ' μ'' : Memo Nat} {numbered : Array Value} {v c : Value} {vs us : List Value}
  {I J : List Instruction} {write : Value → Writing ε (List Instruction)}

/-! ## Numbers -/

/-- What has been built of the objects that are numbered. -/
def named (μ : Memo Nat) (numbered : Array Value) (v : Value) : Option Value :=
  (μ.find? v).bind (numbered[·]?)

/-- As many things have been numbered while they were built as have been while they were written. -/
structure Numbered (μ : Memo Nat) (numbered : Array Value) : Prop where
  size : μ.size = numbered.size
  below : ∀ v n, μ.find? v = some n → n < numbered.size

theorem Numbered.push (h : Numbered μ numbered) (v c : Value) :
    Numbered (μ.insert v μ.size) (numbered.push c) where
  size := by simp [h.size]
  below u n hu := by
    rw [Memo.find?_insert] at hu
    rw [Array.size_push]
    split at hu
    · obtain rfl := Option.some.inj hu
      rw [h.size]
      exact Nat.lt_succ_self _
    · exact Nat.lt_succ_of_lt (h.below u n hu)

/-- What gets the next number stands for the object that has got it. -/
theorem Numbered.named_push (h : Numbered μ numbered) (v c u : Value) :
    named (μ.insert v μ.size) (numbered.push c) u =
      if u = v then some c else named μ numbered u := by
  rw [named, Memo.find?_insert]
  split
  · simp [h.size]
  · cases hu : μ.find? u with
    | none => simp [named, hu]
    | some n =>
      have hn := h.below u n hu
      simp [named, hu, Array.getElem?_push, Nat.ne_of_lt hn]

/-- Nothing has been built of what has no number, and something of all else. -/
theorem Numbered.named_isSome (h : Numbered μ numbered) (v : Value) :
    (named μ numbered v).isSome = (μ.find? v).isSome := by
  cases hv : μ.find? v with
  | none => simp [named, hv]
  | some n => simp [named, hv, h.below v n hv]

/-- Nothing has been built of what has no number. -/
theorem Numbered.named_eq_none (h : Numbered μ numbered) (hv : μ.find? v = none) :
    named μ numbered v = none := by
  have hsome := h.named_isSome v
  rw [hv] at hsome
  exact Option.isNone_iff_eq_none.1 (by simpa using hsome)

/-! ## Building -/

/-- Instructions that build what stands for some values, whatever has been built before. -/
def Builds (b : World ε) (G : Value → Prop) (vs : List Value) (I : List Instruction)
    (μ μ' : Memo Nat) : Prop :=
  ∀ stack numbered w, Numbered μ numbered → Twins b G (named μ numbered) w →
    ∃ numbered' w', (I.foldlM carryOut ⟨stack, numbered⟩).run w =
      (.ok ⟨(vs.map (stand (named μ' numbered'))).reverse ++ stack, numbered'⟩, w') ∧
      Numbered μ' numbered' ∧ Twins b G (named μ' numbered') w' ∧
      Goes b .none (named μ numbered) w (named μ' numbered') w' ∧
      ∀ v ∈ vs, Known (named μ' numbered') v

theorem Builds.nil (b : World ε) (G : Value → Prop) (μ : Memo Nat) : Builds b G [] [] μ μ :=
  fun _ numbered w hn ht => ⟨numbered, w, rfl, hn, ht, .refl _ _ w, nofun⟩

/-- Instructions are carried out one after the other. -/
theorem run_foldlM_append {bench bench' : Bench}
    (h : (I.foldlM carryOut bench).run w = (.ok bench', w')) :
    ((I ++ J).foldlM carryOut bench).run w = (J.foldlM carryOut bench').run w' := by
  rw [List.foldlM_append, run_bind, h]

/-- Values are built one after the other. -/
theorem Builds.append (h : Builds b G vs I μ μ') (h' : Builds b G us J μ' μ'') :
    Builds b G (vs ++ us) (I ++ J) μ μ'' := by
  intro stack numbered w hn ht
  obtain ⟨numbered₁, w₁, hrun₁, hn₁, ht₁, hgoes₁, hknown₁⟩ := h stack numbered w hn ht
  obtain ⟨numbered₂, w₂, hrun₂, hn₂, ht₂, hgoes₂, hknown₂⟩ := h' _ numbered₁ w₁ hn₁ ht₁
  refine ⟨numbered₂, w₂, ?_, hn₂, ht₂, hgoes₁.trans hgoes₂ ht₁ ht₂ fun v _ => ht₁.ne_none, ?_⟩
  · have hsame : vs.map (stand (named μ' numbered₁)) = vs.map (stand (named μ'' numbered₂)) :=
      List.map_congr_left fun v hv => (stand_eq ht₁ ht₂ hgoes₂.names (hknown₁ v hv)).symm
    rw [run_foldlM_append hrun₁, hrun₂, hsame]
    simp
  · intro v hv
    rcases List.mem_append.1 hv with hv | hv
    · exact (hknown₁ v hv).mono hgoes₂.names
    · exact hknown₂ v hv

/-! ## Writing -/

/-- What writes each value of a graph, as long as something holds of the numbers. The instructions
build what stands for the value. -/
def Writes (b : World ε) (G : Value → Prop) (P : Memo Nat → Prop)
    (write : Value → Writing ε (List Instruction)) : Prop :=
  ∀ μ v, G v → P μ → ∃ I μ', ((write v).run μ).run b = (.ok (I, μ'), b) ∧
    (∀ u n, μ.find? u = some n → μ'.find? u = some n) ∧ Builds b G [v] I μ μ'

/-- Values are written one after the other. -/
theorem writeAll_run (hwrite : Writes b G P write) (hP : Lasting P) :
    ∀ vs μ, (∀ v ∈ vs, G v) → P μ → ∃ I μ',
      ((writeAll write vs).run μ).run b = (.ok (I, μ'), b) ∧
      (∀ u n, μ.find? u = some n → μ'.find? u = some n) ∧ Builds b G vs I μ μ'
  | [], μ, _, _ => ⟨[], μ, rfl, fun _ _ h => h, .nil b G μ⟩
  | v :: rest, μ, hG, hμ => by
    obtain ⟨I, μ₁, hrun₁, hnames₁, hbuilds₁⟩ := hwrite μ v (hG v List.mem_cons_self) hμ
    obtain ⟨J, μ₂, hrun₂, hnames₂, hbuilds₂⟩ := writeAll_run hwrite hP rest μ₁
      (fun u hu => hG u (List.mem_cons_of_mem v hu)) (hP μ μ₁ hnames₁ hμ)
    refine ⟨I ++ J, μ₂, ?_, fun u n hu => hnames₂ u n (hnames₁ u n hu), hbuilds₁.append hbuilds₂⟩
    simp only [writeAll, StateT.run_bind, run_bind, hrun₁, hrun₂, StateT.run_pure, run_pure]

/-! ## Objects -/

/-- A twin of a node is made and numbered. -/
theorem object_number_run (r : Ref .node) (below : List Value) (numbered : Array Value)
    (w : World ε) :
    ((.object (.node r) :: .number :: J).foldlM carryOut ⟨below, numbered⟩).run w =
      (J.foldlM carryOut ⟨.node w.nodes.next :: below, numbered.push (.node w.nodes.next)⟩).run
        (w.newNode ⟨(w.nodes.get r).cls, []⟩).2 := rfl

/-- A twin of a list is made and numbered. -/
theorem list_number_run (below : List Value) (numbered : Array Value) (w : World ε) :
    ((.list :: .number :: J).foldlM carryOut ⟨below, numbered⟩).run w =
      (J.foldlM carryOut ⟨.list w.lists.next :: below, numbered.push (.list w.lists.next)⟩).run
        (w.storeList []).2 := rfl

/-- What lies on top of other things. -/
theorem top_reverse_append (vs : List Value) (numbered : Array Value) (below : List Value) :
    Bench.top ⟨vs.reverse ++ below, numbered⟩ vs.length = vs := by
  simp [Bench.top]

theorem pop_reverse_append (vs : List Value) (numbered : Array Value) (below : List Value) :
    Bench.pop ⟨vs.reverse ++ below, numbered⟩ vs.length = ⟨below, numbered⟩ := by
  simp [Bench.pop]

/-- What stands for the attributes of a node is put into its twin. -/
theorem putting_restore_run {x : Ref .node} (m : Value → Option Value) (a : Attributes)
    (below : List Value) (numbered : Array Value) (hempty : (w.nodes.get x).attributes = [])
    (hd : (a.map Prod.fst).Nodup) :
    ∃ w', ((putting a.length (.restore (a.map (·.1)))).foldlM carryOut
        ⟨((a.map (·.2)).map (stand m)).reverse ++ .node x :: below, numbered⟩).run w =
        (.ok ⟨.node x :: below, numbered⟩, w') ∧ Leaves (.node x) w w' ∧
      (∃ nodes lists, w' = { w with nodes := nodes, lists := lists }) ∧
      (w'.nodes.get x).attributes = standAll m a := by
  unfold putting
  split
  · rename_i hlen
    obtain rfl := List.eq_nil_of_length_eq_zero hlen
    exact ⟨w, rfl, .refl _ w, ⟨w.nodes, w.lists, rfl⟩, hempty⟩
  · refine ⟨_, ?_, leaves_modifyOwn w x _, ⟨_, _, rfl⟩,
      attributes_restored hempty (by rwa [map_fst_standAll])⟩
    have htop := top_reverse_append ((a.map (·.2)).map (stand m)) numbered (.node x :: below)
    have hpop := pop_reverse_append ((a.map (·.2)).map (stand m)) numbered (.node x :: below)
    rw [List.length_map, List.length_map] at htop hpop
    have hzip : (a.map (·.1)).zip ((a.map (·.2)).map (stand m)) = standAll m a := by
      rw [List.map_map, List.zip_map']
      rfl
    simp only [List.foldlM_cons, List.foldlM_nil, carryOut, List.length_map, htop, hpop, Bench.head,
      List.headD_cons, hzip, restore, run_bind, run_change, run_pure]

/-- What stands for the elements of a list is put into its twin. -/
theorem putting_append_run {x : Ref .list} (m : Value → Option Value) (vs below : List Value)
    (numbered : Array Value) (hempty : w.items x = []) :
    ∃ w', ((putting vs.length (.append vs.length)).foldlM carryOut
        ⟨(vs.map (stand m)).reverse ++ .list x :: below, numbered⟩).run w =
        (.ok ⟨.list x :: below, numbered⟩, w') ∧ Leaves (.list x) w w' ∧
      (∃ nodes lists, w' = { w with nodes := nodes, lists := lists }) ∧
      w'.items x = vs.map (stand m) := by
  unfold putting
  split
  · rename_i hlen
    obtain rfl := List.eq_nil_of_length_eq_zero hlen
    exact ⟨w, rfl, .refl _ w, ⟨w.nodes, w.lists, rfl⟩, hempty⟩
  · refine ⟨_, ?_, leaves_modifyList w x (· ++ (vs.map (stand m)).toArray), ⟨_, _, rfl⟩, ?_⟩
    · have htop := top_reverse_append (vs.map (stand m)) numbered (.list x :: below)
      have hpop := pop_reverse_append (vs.map (stand m)) numbered (.list x :: below)
      rw [List.length_map] at htop hpop
      simp only [List.foldlM_cons, List.foldlM_nil, carryOut, htop, hpop, Bench.head,
        List.headD_cons, fill, run_bind, run_change, run_pure]
    · simpa [World.items, Store.get_modify] using hempty

/-- The twin of a node is made and numbered first, since the node may lie in its own attributes.
What stands for these is put into it in the end. -/
theorem builds_node {r : Ref .node} (hv : G (.node r)) (stored : r.index < b.nodes.cells.size)
    (distinct : ((b.nodes.get r).unguarded.map Prod.fst).Nodup)
    (hnew : μ.find? (.node r) = none)
    (hbuilds : Builds b G ((b.nodes.get r).unguarded.map (·.2)) I
      (μ.insert (.node r) μ.size) μ') :
    Builds b G [.node r] (.object (.node r) :: .number :: (I ++
      putting (b.nodes.get r).unguarded.length
        (.restore ((b.nodes.get r).unguarded.map (·.1))))) μ μ' := by
  intro stack numbered w hn ht
  let x := w.nodes.next
  have hnamed := hn.named_push (.node r) (.node x)
  have ht₁ := ht.newNode hv stored hnamed
  obtain ⟨numbered₂, w₂, hrun₂, hn₂, ht₂, hgoes₂, hknown⟩ :=
    hbuilds (.node x :: stack) _ _ (hn.push (.node r) (.node x)) ht₁
  have hx₂ := hgoes₂.names (.node r) (.node x) (by rw [hnamed, if_pos rfl])
  obtain ⟨w₃, hrun₃, hset, hrest, hattributes⟩ :=
    putting_restore_run (named μ' numbered₂) (b.nodes.get r).unguarded stack numbered₂
      (attributes_newNode hgoes₂.leaves) distinct
  have ht₃ := ht₂.after hset ((absent_node w).before ht.leaves) hrest
  refine ⟨numbered₂, w₃, ?_, hn₂, ht₃, .finish (hn.named_eq_none hnew) hnamed
    (leaves_newNode w ⟨(w.nodes.get r).cls, []⟩) (absent_node w) ?_
    (.node hx₂ hattributes fun p hp => hknown _ (List.mem_map_of_mem hp)), ?_⟩
  · rw [object_number_run, run_foldlM_append hrun₂, hrun₃]
    simp [stand_of_some hx₂, x]
  · exact (hgoes₂.but _).trans (.of_leaves hset) ht₂ ht₃
      (hgoes₂.ne ht₂ (by rw [hnamed, if_pos rfl]))
  · simp [Known, hx₂]

/-- The same for the twin of a list and its elements. -/
theorem builds_list {l : Ref .list} (hv : G (.list l)) (hnew : μ.find? (.list l) = none)
    (hbuilds : Builds b G (b.items l) I (μ.insert (.list l) μ.size) μ') :
    Builds b G [.list l] (.list :: .number :: (I ++
      putting (b.items l).length (.append (b.items l).length))) μ μ' := by
  intro stack numbered w hn ht
  let x := w.lists.next
  have hnamed := hn.named_push (.list l) (.list x)
  have ht₁ := ht.newList hv hnamed
  obtain ⟨numbered₂, w₂, hrun₂, hn₂, ht₂, hgoes₂, hknown⟩ :=
    hbuilds (.list x :: stack) _ _ (hn.push (.list l) (.list x)) ht₁
  have hx₂ := hgoes₂.names (.list l) (.list x) (by rw [hnamed, if_pos rfl])
  have hempty : w₂.items x = [] :=
    (hgoes₂.leaves.lists x (by simp [World.storeList, Store.add, Store.next, x]) nofun).trans
      (items_storeList w)
  obtain ⟨w₃, hrun₃, hset, hrest, hitems⟩ :=
    putting_append_run (named μ' numbered₂) (b.items l) stack numbered₂ hempty
  have ht₃ := ht₂.after hset ((absent_list w).before ht.leaves) hrest
  refine ⟨numbered₂, w₃, ?_, hn₂, ht₃, .finish (hn.named_eq_none hnew) hnamed
    (leaves_storeList w []) (absent_list w) ?_ (.list hx₂ hitems hknown), ?_⟩
  · rw [list_number_run, run_foldlM_append hrun₂, hrun₃]
    simp [stand_of_some hx₂, x]
  · exact (hgoes₂.but _).trans (.of_leaves hset) ht₂ ht₃
      (hgoes₂.ne ht₂ (by rw [hnamed, if_pos rfl]))
  · simp [Known, hx₂]

/-- An object gets its number, and then what it holds is written. -/
theorem writeObject_run (hb : ∀ v, G v → Duplicable b G v) (hwrite : Writes b G P write)
    (hP : Lasting P) (hv : G v) (hplain : v.isPlain = false) (hnew : μ.find? v = none)
    (hμ : ∀ n, P (μ.insert v n)) :
    ∃ I μ', ((writeObject write v).run μ).run b = (.ok (I, μ'), b) ∧
      (∀ u n, μ.find? u = some n → μ'.find? u = some n) ∧ Builds b G [v] I μ μ' := by
  have hnames₁ : ∀ u n, μ.find? u = some n → (μ.insert v μ.size).find? u = some n := by
    intro u n hu
    rw [Memo.find?_insert, if_neg, hu]
    rintro rfl
    simp [hnew] at hu
  cases hb v hv with
  | plain h => simp [h] at hplain
  | @node r k stored cls distinct holds =>
    let a := (b.nodes.get r).unguarded
    obtain ⟨I, μ₂, hrun, hnames₂, hbuilds⟩ := writeAll_run hwrite hP (a.map (·.2)) _
      (by simpa using fun v n h => holds (n, v) h) (hμ μ.size)
    refine ⟨.object (.node r) :: .number :: (I ++ putting a.length (.restore (a.map (·.1)))), μ₂,
      ?_, fun u n hu => hnames₂ u n (hnames₁ u n hu), builds_node hv stored distinct hnew hbuilds⟩
    have hhanded : handedOn b (.node r) = a := rfl
    simp only [writeObject, uncopyable?, numberNext, writeAttributes, StateT.run_bind, run_bind,
      StateT.run_monadLift, monadLift_self, run_see, hhanded, run_pure,
      StateT.run_modify, StateT.run_pure, hrun]
    rfl
  | @list l stored holds =>
    obtain ⟨I, μ₂, hrun, hnames₂, hbuilds⟩ :=
      writeAll_run hwrite hP (b.items l) _ holds (hμ μ.size)
    refine ⟨.list :: .number :: (I ++ putting (b.items l).length (.append (b.items l).length)), μ₂,
      ?_, fun u n hu => hnames₂ u n (hnames₁ u n hu), builds_list hv hnew hbuilds⟩
    simp only [writeObject, numberNext, StateT.run_bind, run_bind, StateT.run_monadLift,
      monadLift_self, run_see, run_pure, StateT.run_modify, StateT.run_pure, hrun]
    rfl

/-! ## Any depth -/

/-- All values of a graph can be written. -/
theorem Duplicable.unwritable?_eq (h : Duplicable b G v) : unwritable? b v = none := by
  cases h with
  | plain h => cases v <;> first | rfl | cases h
  | node stored cls => simp [unwritable?, cls]
  | list => rfl

/-- An object that has a number is not written again. -/
theorem writeWithin_recalled {n : Nat} (hu : unwritable? b v = none) (hs : isShared v = false)
    (hv : μ.find? v = some n) (fuel : Nat) (begun : List (Value × Nat)) :
    ((writeWithin fuel begun v).run μ).run b = (.ok ([.recall n], μ), b) := by
  unfold writeWithin
  simp [hu, hs, hv]

/-- An object that has no number is written. -/
theorem writeWithin_new (hu : unwritable? b v = none) (hs : isShared v = false)
    (hv : μ.find? v = none) {begun : List (Value × Nat)} (hl : begun.lookup v ≠ some μ.size)
    (fuel : Nat) :
    ((writeWithin (fuel + 1) begun v).run μ).run b =
      ((writeObject (writeWithin fuel ((v, μ.size) :: begun)) v).run μ).run b := by
  rw [writeWithin]
  simp [hu, hs, hv, hl]

/-- Where it is known what stands for a value, nothing is built. -/
theorem writeWithin_known (hb : ∀ v, G v → Duplicable b G v) (hv : G v)
    (hknown : v.isPlain = true ∨ (μ.find? v).isSome = true) (fuel : Nat)
    (begun : List (Value × Nat)) :
    ∃ I μ', ((writeWithin fuel begun v).run μ).run b = (.ok (I, μ'), b) ∧
      (∀ u n, μ.find? u = some n → μ'.find? u = some n) ∧ Builds b G [v] I μ μ' := by
  have hu := (hb v hv).unwritable?_eq
  cases hplain : v.isPlain with
  | true =>
    refine ⟨[.keep v], μ, writeWithin_shared (isShared_of_plain hplain) hu fuel begun μ,
      fun _ _ h => h, fun stack numbered w hn ht => ?_⟩
    refine ⟨numbered, w, ?_, hn, ht, .refl _ _ w, by simp [Known, hplain]⟩
    simp only [List.map_cons, List.map_nil, ht.stand_plain hplain]
    cases v <;> first | rfl | cases hplain
  | false =>
    obtain ⟨n, hnumber⟩ := Option.isSome_iff_exists.1 (hknown.resolve_left (by simp [hplain]))
    refine ⟨[.recall n], μ,
      writeWithin_recalled hu ((hb v hv).isShared_eq hplain) hnumber fuel begun, fun _ _ h => h,
      fun stack numbered w hn ht => ?_⟩
    obtain ⟨c, hc⟩ : ∃ c, named μ numbered v = some c :=
      Option.isSome_iff_exists.1 ((hn.named_isSome v).trans (by simp [hnumber]))
    refine ⟨numbered, w, ?_, hn, ht, .refl _ _ w, by simp [Known, hc]⟩
    have hget : numbered[n]? = some c := by simpa [named, hnumber] using hc
    have hrecalled : Bench.recalled ⟨stack, numbered⟩ n = c := by
      simp [Bench.recalled, Array.getD_eq_getD_getElem?, hget]
    simp only [List.map_cons, List.map_nil, stand_of_some hc, ← hrecalled]
    rfl

/-- **The instructions for a value build what stands for the value**, with all twins that are made
on the way done in the end. -/
theorem writeWithin_writes (hb : ∀ v, G v → Duplicable b G v) (fuel : Nat) :
    ∀ begun, Writes b G (Ready b fuel begun) (writeWithin fuel begun) := by
  induction fuel with
  | zero =>
    intro begun μ v hv hμ
    by_cases hknown : v.isPlain = true ∨ (μ.find? v).isSome = true
    · exact writeWithin_known hb hv hknown 0 begun
    · simp only [not_or, Bool.not_eq_true, Option.isSome_eq_false_iff,
        Option.isNone_iff_eq_none] at hknown
      -- fuel is left for each object that has no number, so there is none
      obtain ⟨fuel, hfuel, -⟩ := hμ.insert hb hv hknown.1 hknown.2 0 0
      cases hfuel
  | succ fuel ih =>
    intro begun μ v hv hμ
    by_cases hknown : v.isPlain = true ∨ (μ.find? v).isSome = true
    · exact writeWithin_known hb hv hknown (fuel + 1) begun
    · simp only [not_or, Bool.not_eq_true, Option.isSome_eq_false_iff,
        Option.isNone_iff_eq_none] at hknown
      obtain ⟨hplain, hnew⟩ := hknown
      rw [writeWithin_new (hb v hv).unwritable?_eq ((hb v hv).isShared_eq hplain) hnew
        (hμ.lookup hnew _)]
      refine writeObject_run hb (ih ((v, μ.size) :: begun)) (lasting_ready b fuel _) hv hplain hnew
        fun n => ?_
      obtain ⟨fuel', hfuel, hready⟩ := hμ.insert hb hv hplain hnew n μ.size
      obtain rfl := Nat.succ.inj hfuel
      exact hready

/-- **A graph that is written out can be read back.** -/
theorem written_run (hb : ∀ v, G v → Duplicable b G v) (hv : G v) :
    ∃ m w, (written v : Act ε Value).run b = (.ok (stand m v), w) ∧ Twins b G m w ∧
      Goes b .none (fun _ => none) b m w ∧ Known m v := by
  obtain ⟨I, μ, hwrite, -, hbuilds⟩ :=
    writeWithin_writes hb (b.extent * b.extent) [] .empty v hv ⟨spare_le b _, nofun⟩
  have hempty : named .empty #[] = fun _ => none := by
    funext v
    simp [named]
  have hn : Numbered .empty #[] := ⟨rfl, by simp⟩
  obtain ⟨numbered, w, hrun, -, ht, hgoes, hknown⟩ :=
    hbuilds [] #[] b hn (hempty ▸ Twins.start b G)
  rw [hempty] at hgoes
  refine ⟨named μ numbered, w, ?_, ht, hgoes, hknown v List.mem_cons_self⟩
  simp only [written, build, run_bind, run_see, hwrite, hrun, run_pure]
  rfl

end Copying

end GuardedWalk
