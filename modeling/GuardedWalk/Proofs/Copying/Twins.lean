import GuardedWalk.Copying.Memo
import GuardedWalk.Copying.Shallow
import GuardedWalk.Proofs.World.Reaching

/-!
# Objects and their twins

While a graph is copied, some of its objects have a twin already: a new object of the same class.
The twin of an object is done when it holds what the object holds, with twins in the place of all
that is no plain data. Copying goes on from one such state to another: objects keep their twins, no
object that is there changes, and all twins that are made meanwhile are done in the end.

Which objects have twins is kept in one way or another; here it is a function.

## Main definitions

* `GuardedWalk.Copying.stand` — what stands for a value in a copy.
* `GuardedWalk.Copying.Duplicable` — a value that can be copied, with what it holds.
* `GuardedWalk.Copying.Leaves` — all nodes and lists but one are as before.
* `GuardedWalk.Copying.Twins`, `Done` — the twins that there are, and those that are done.
* `GuardedWalk.Copying.Goes` — copying goes on.
* `GuardedWalk.Copying.spare` — how many objects have no twin yet.
* `GuardedWalk.Copying.Ready` — how deep a copy may still go.

## Main results

* `GuardedWalk.Copying.Goes.trans` — copying goes on step by step.
* `GuardedWalk.Copying.Goes.finish` — an object gets a twin, and what it holds is put into the twin.
-/

set_option autoImplicit false

namespace GuardedWalk

/-- Attributes are set one after the other in the order in which they are to stand. -/
theorem Attributes.foldl_set_append (a done : Attributes)
    (h : ((done ++ a).map Prod.fst).Nodup) :
    a.foldl (fun b p => b.set p.1 p.2) done = done ++ a := by
  induction a generalizing done with
  | nil => simp
  | cons p rest ih =>
    have hset : ∀ b : Attributes, p.1 ∉ b.map Prod.fst → b.set p.1 p.2 = b ++ [p] := by
      intro b hb
      induction b with
      | nil => rfl
      | cons q tail ih =>
        simp only [List.map_cons, List.mem_cons, not_or] at hb
        simp [set, Ne.symm hb.1, ih hb.2]
    have hp : p.1 ∉ done.map Prod.fst := by
      simp only [List.map_append, List.map_cons, List.nodup_append] at h
      exact fun hmem => h.2.2 _ hmem _ List.mem_cons_self rfl
    rw [List.foldl_cons, hset done hp, ih _ (by simpa using h)]
    simp

namespace Copying

open World (Stores)

variable {ε : Type} {b w w' w'' : World ε} {G : Value → Prop} {m m' m'' : Value → Option Value}
  {u v x c : Value}

/-! ## What stands for a value -/

/-- What stands for a value: its twin, or the value itself if it has none. -/
def stand (m : Value → Option Value) (v : Value) : Value := (m v).getD v

/-- Attributes with twins in the place of their values. -/
def standAll (m : Value → Option Value) (a : Attributes) : Attributes :=
  a.map fun p => (p.1, stand m p.2)

/-- It is known what stands for a value in a copy: the value is plain, or it has a twin. -/
def Known (m : Value → Option Value) (v : Value) : Prop := v.isPlain = true ∨ (m v).isSome = true

theorem stand_of_some (h : m v = some c) : stand m v = c := by
  simp [stand, h]

/-- A value that can be copied: plain data, or a node or a list that is there and whose contents can
be copied. -/
inductive Duplicable (b : World ε) (G : Value → Prop) : Value → Prop where
  | plain {v : Value} (h : v.isPlain = true) : Duplicable b G v
  | node {r : Ref .node} {k : DocumentClass} (stored : r.index < b.nodes.cells.size)
    (cls : (b.nodes.get r).cls = .document k)
    (distinct : ((b.nodes.get r).unguarded.map Prod.fst).Nodup)
    (holds : ∀ p ∈ (b.nodes.get r).unguarded, G p.2) : Duplicable b G (.node r)
  | list {l : Ref .list} (stored : l.index < b.lists.cells.size) (holds : ∀ y ∈ b.items l, G y) :
    Duplicable b G (.list l)

/-! ## Nodes and lists that stay -/

/-- All nodes and lists are as before, except for one value that may be other than before, but of
the same class. -/
structure Leaves (x : Value) (w w' : World ε) : Prop where
  nodesSize : w.nodes.cells.size ≤ w'.nodes.cells.size
  listsSize : w.lists.cells.size ≤ w'.lists.cells.size
  cls : ∀ r : Ref .node, r.index < w.nodes.cells.size →
    (w'.nodes.get r).cls = (w.nodes.get r).cls
  nodes : ∀ r : Ref .node, r.index < w.nodes.cells.size → .node r ≠ x →
    w'.nodes.get r = w.nodes.get r
  lists : ∀ l : Ref .list, l.index < w.lists.cells.size → .list l ≠ x → w'.items l = w.items l

/-- A value is no node and no list that is there. -/
def Absent (w : World ε) (x : Value) : Prop :=
  (∀ r : Ref .node, x = .node r → w.nodes.cells.size ≤ r.index) ∧
    ∀ l : Ref .list, x = .list l → w.lists.cells.size ≤ l.index

theorem absent_of_plain (w : World ε) (hx : x.isPlain = true) : Absent w x := by
  constructor <;> rintro _ rfl <;> cases hx

theorem Leaves.refl (x : Value) (w : World ε) : Leaves x w w :=
  ⟨Nat.le_refl _, Nat.le_refl _, fun _ _ => rfl, fun _ _ _ => rfl, fun _ _ _ => rfl⟩

theorem Leaves.trans (h : Leaves x w w') (h' : Leaves x w' w'') : Leaves x w w'' where
  nodesSize := Nat.le_trans h.nodesSize h'.nodesSize
  listsSize := Nat.le_trans h.listsSize h'.listsSize
  cls r hr := (h'.cls r (Nat.lt_of_lt_of_le hr h.nodesSize)).trans (h.cls r hr)
  nodes r hr hx := (h'.nodes r (Nat.lt_of_lt_of_le hr h.nodesSize) hx).trans (h.nodes r hr hx)
  lists l hl hx := (h'.lists l (Nat.lt_of_lt_of_le hl h.listsSize) hx).trans (h.lists l hl hx)

/-- Whatever leaves all nodes and lists alone leaves all but one alone. -/
theorem Leaves.but (h : Leaves .none w w') (x : Value) : Leaves x w w' :=
  ⟨h.nodesSize, h.listsSize, h.cls, fun r hr _ => h.nodes r hr nofun,
    fun l hl _ => h.lists l hl nofun⟩

/-- An exception that is not there is none. -/
theorem Leaves.absent (h : Leaves x w w') (hx : Absent w x) : Leaves .none w w' :=
  ⟨h.nodesSize, h.listsSize, h.cls,
    fun r hr _ => h.nodes r hr fun e => absurd (hx.1 r e.symm) (by omega),
    fun l hl _ => h.lists l hl fun e => absurd (hx.2 l e.symm) (by omega)⟩

/-! ## Twins -/

/-- A new object of the class of another one. -/
inductive Twin (b w : World ε) : Value → Value → Prop where
  | node {r r' : Ref .node} (new : b.nodes.cells.size ≤ r'.index)
    (stored : r'.index < w.nodes.cells.size)
    (cls : (w.nodes.get r').cls = (b.nodes.get r).cls) : Twin b w (.node r) (.node r')
  | list {l l' : Ref .list} (new : b.lists.cells.size ≤ l'.index)
    (stored : l'.index < w.lists.cells.size) : Twin b w (.list l) (.list l')

theorem Twin.leaves (h : Twin b w v c) (hw : Leaves x w w') : Twin b w' v c := by
  cases h with
  | @node r r' new stored cls =>
    exact .node new (Nat.lt_of_lt_of_le stored hw.nodesSize) ((hw.cls r' stored).trans cls)
  | list new stored => exact .list new (Nat.lt_of_lt_of_le stored hw.listsSize)

/-- What is there is no new object. -/
theorem Twin.ne (h : Twin b w v c) (hx : Absent w x) : c ≠ x := by
  rintro rfl
  cases h with
  | @node r r' new stored cls => exact absurd (hx.1 r' rfl) (by omega)
  | @list l l' new stored => exact absurd (hx.2 l' rfl) (by omega)

/-- The twins that there are: of values that are to be copied, different ones of different values.
Nothing but nodes and lists has been added to the world `b` in which copying has begun. -/
structure Twins (b : World ε) (G : Value → Prop) (m : Value → Option Value) (w : World ε) :
    Prop where
  rest : ∃ nodes lists, w = { b with nodes := nodes, lists := lists }
  leaves : Leaves .none b w
  twin : ∀ v c, m v = some c → G v ∧ Twin b w v c
  injective : ∀ u v c, m u = some c → m v = some c → u = v

/-- In the beginning there are no twins. -/
theorem Twins.start (b : World ε) (G : Value → Prop) : Twins b G (fun _ => none) b where
  rest := ⟨b.nodes, b.lists, rfl⟩
  leaves := .refl .none b
  twin _ _ h := by cases h
  injective _ _ _ h := by cases h

theorem Twins.not_plain (h : Twins b G m w) (hv : m v = some c) : v.isPlain = false := by
  obtain ⟨-, ht⟩ := h.twin v c hv
  cases ht <;> rfl

/-- Plain data stand for themselves. -/
theorem Twins.stand_plain (h : Twins b G m w) (hv : v.isPlain = true) : stand m v = v := by
  cases hm : m v with
  | none => simp [stand, hm]
  | some c => simp [h.not_plain hm] at hv

/-- What stands for a value stays so once it is known. -/
theorem stand_eq (h : Twins b G m w) (h' : Twins b G m' w')
    (hn : ∀ v c, m v = some c → m' v = some c) (hv : Known m v) : stand m' v = stand m v := by
  rcases hv with hv | hv
  · rw [h.stand_plain hv, h'.stand_plain hv]
  · obtain ⟨c, hc⟩ := Option.isSome_iff_exists.1 hv
    rw [stand_of_some hc, stand_of_some (hn v c hc)]

theorem Known.mono (hv : Known m v) (hn : ∀ v c, m v = some c → m' v = some c) : Known m' v := by
  refine hv.imp_right fun hv => ?_
  obtain ⟨c, hc⟩ := Option.isSome_iff_exists.1 hv
  simp [hn v c hc]

/-- The twins there are stay such as long as nodes and lists do, apart from one that is new. -/
theorem Twins.after (h : Twins b G m w) (hl : Leaves x w w') (hx : Absent b x)
    (hw : ∃ nodes lists, w' = { w with nodes := nodes, lists := lists }) : Twins b G m w' where
  rest := by
    obtain ⟨N, L, rfl⟩ := h.rest
    obtain ⟨N', L', rfl⟩ := hw
    exact ⟨N', L', rfl⟩
  leaves := ((h.leaves.but x).trans hl).absent hx
  twin v c hv := (h.twin v c hv).imp_right fun ht => ht.leaves hl
  injective := h.injective

/-- An object gets a twin. -/
theorem Twins.add (h : Twins b G m w) (hv : G v) (ht : Twin b w v c)
    (hnew : ∀ u, m u ≠ some c) (hm : ∀ u, m' u = if u = v then some c else m u) :
    Twins b G m' w where
  rest := h.rest
  leaves := h.leaves
  twin u c' hu := by
    rw [hm] at hu
    split at hu
    · obtain rfl := Option.some.inj hu
      subst u
      exact ⟨hv, ht⟩
    · exact h.twin u c' hu
  injective u u' c' hu hu' := by
    rw [hm] at hu hu'
    split at hu <;> split at hu'
    · subst u u'
      rfl
    · obtain rfl := Option.some.inj hu
      exact absurd hu' (hnew u')
    · obtain rfl := Option.some.inj hu'
      exact absurd hu (hnew u)
    · exact h.injective u u' c' hu hu'

/-! ## Twins that are done -/

/-- A twin holds what its object holds, as far as it is known what stands for that. -/
inductive Done (b : World ε) (m : Value → Option Value) (w : World ε) : Value → Prop where
  | node {r r' : Ref .node} (twin : m (.node r) = some (.node r'))
    (attributes : (w.nodes.get r').attributes = standAll m (b.nodes.get r).unguarded)
    (known : ∀ p ∈ (b.nodes.get r).unguarded, Known m p.2) : Done b m w (.node r)
  | list {l l' : Ref .list} (twin : m (.list l) = some (.list l'))
    (items : w.items l' = (b.items l).map (stand m)) (known : ∀ y ∈ b.items l, Known m y) :
    Done b m w (.list l)

/-- A twin that is done stays so. -/
theorem Done.mono (h : Done b m w v) (ht : Twins b G m w) (ht' : Twins b G m' w')
    (hn : ∀ v c, m v = some c → m' v = some c) (hl : Leaves x w w') (hx : m v ≠ some x) :
    Done b m' w' v := by
  cases h with
  | @node r r' twin attributes known =>
    obtain ⟨-, htwin⟩ := ht.twin _ _ twin
    cases htwin with
    | node new stored cls =>
      refine .node (hn _ _ twin) ?_ fun p hp => (known p hp).mono hn
      rw [hl.nodes r' stored (fun e => hx (e ▸ twin)), attributes]
      exact List.map_congr_left fun p hp => by rw [stand_eq ht ht' hn (known p hp)]
  | @list l l' twin items known =>
    obtain ⟨-, htwin⟩ := ht.twin _ _ twin
    cases htwin with
    | list new stored =>
      refine .list (hn _ _ twin) ?_ fun p hp => (known p hp).mono hn
      rw [hl.lists l' stored (fun e => hx (e ▸ twin)), items]
      exact List.map_congr_left fun p hp => (stand_eq ht ht' hn (known p hp)).symm

/-- Copying goes on: objects keep their twins, nodes and lists stay, except for one, and all twins
that are made meanwhile are done in the end. -/
structure Goes (b : World ε) (x : Value) (m : Value → Option Value) (w : World ε)
    (m' : Value → Option Value) (w' : World ε) : Prop where
  names : ∀ v c, m v = some c → m' v = some c
  leaves : Leaves x w w'
  done : ∀ v, m v = none → (m' v).isSome = true → Done b m' w' v

theorem Goes.of_leaves (h : Leaves x w w') : Goes b x m w m w' where
  names _ _ hv := hv
  leaves := h
  done v hv hv' := by simp [hv] at hv'

theorem Goes.refl (x : Value) (m : Value → Option Value) (w : World ε) : Goes b x m w m w :=
  .of_leaves (.refl x w)

/-- Whatever leaves all nodes and lists alone leaves all but one alone. -/
theorem Goes.but (h : Goes b .none m w m' w') (x : Value) : Goes b x m w m' w' :=
  { h with leaves := h.leaves.but x }

/-- Copying goes on step by step, as long as the exception is no twin that is made meanwhile. -/
theorem Goes.trans (h : Goes b x m w m' w') (h' : Goes b x m' w' m'' w'')
    (ht : Twins b G m' w') (ht' : Twins b G m'' w'') (hx : ∀ v, m v = none → m' v ≠ some x) :
    Goes b x m w m'' w'' where
  names v c hv := h'.names v c (h.names v c hv)
  leaves := h.leaves.trans h'.leaves
  done v hv hv' := by
    cases hm : m' v with
    | none => exact h'.done v hm hv'
    | some c =>
      exact (h.done v hv (by simp [hm])).mono ht ht' h'.names h'.leaves (hx v hv)

/-- No twin is nothing. -/
theorem Twins.ne_none (h : Twins b G m w) : m v ≠ some .none := by
  intro hv
  obtain ⟨-, ht⟩ := h.twin v _ hv
  cases ht

/-- If an object has a twin already, no other one is given the same. -/
theorem Goes.ne (h : Goes b x m w m' w') (ht : Twins b G m' w') (hu : m u = some c) :
    ∀ v, m v = none → m' v ≠ some c := by
  intro v hv hv'
  obtain rfl := ht.injective _ _ c (h.names u c hu) hv'
  simp [hu] at hv

/-- An object gets a twin, and what it holds is put into the twin. -/
theorem Goes.finish {w₁ : World ε} {m₁ : Value → Option Value} (hv : m v = none)
    (hm : ∀ u, m₁ u = if u = v then some x else m u) (hl : Leaves .none w w₁) (hx : Absent w x)
    (h : Goes b x m₁ w₁ m' w') (hd : Done b m' w' v) : Goes b .none m w m' w' where
  names u c hu := by
    refine h.names u c ?_
    rw [hm, if_neg, hu]
    rintro rfl
    simp [hv] at hu
  leaves := ((hl.but x).trans h.leaves).absent hx
  done u hu hu' := by
    by_cases huv : u = v
    · subst huv
      exact hd
    · exact h.done u (by rw [hm, if_neg huv, hu]) hu'

/-! ## New objects -/

section Making

variable {r r' : Ref .node} {l l' : Ref .list}

theorem leaves_newNode (w : World ε) (n : Node) : Leaves .none w (w.newNode n).2 := by
  have hget : ∀ r : Ref .node, r.index < w.nodes.cells.size →
      (w.newNode n).2.nodes.get r = w.nodes.get r := by
    intro r hr
    refine (Store.get_add w.nodes r n).trans (if_neg ?_)
    rintro rfl
    exact Nat.lt_irrefl _ hr
  exact ⟨by simp [World.newNode, Store.add], Nat.le_refl _, fun r hr => by rw [hget r hr],
    fun r hr _ => hget r hr, fun _ _ _ => rfl⟩

theorem leaves_storeList (w : World ε) (vs : List Value) : Leaves .none w (w.storeList vs).2 := by
  refine ⟨Nat.le_refl _, by simp [World.storeList, Store.add], fun _ _ => rfl, fun _ _ _ => rfl,
    fun l hl _ => ?_⟩
  refine congrArg Array.toList ((Store.get_add w.lists l vs.toArray).trans (if_neg ?_))
  rintro rfl
  exact Nat.lt_irrefl _ hl

/-- A node is given other attributes. -/
theorem leaves_modifyOwn (w : World ε) (r : Ref .node) (f : Attributes → Attributes) :
    Leaves (.node r) w (w.modifyOwn (.node r) f) := by
  have hget r' :=
    Store.get_modify w.nodes r r' fun x => { x with attributes := f x.attributes }
  refine ⟨Store.size_modify .., Nat.le_refl _, fun r' _ => ?_, fun r' _ hne => ?_, fun _ _ _ => rfl⟩
  · refine (congrArg Node.cls (hget r')).trans ?_
    split
    · subst r'
      rfl
    · rfl
  · exact (hget r').trans (if_neg fun e => hne (congrArg Value.node e))

/-- A node that carries nothing is given attributes. -/
theorem attributes_restored {a : Attributes} (hempty : (w.nodes.get r).attributes = [])
    (hd : (a.map Prod.fst).Nodup) :
    ((w.modifyOwn (.node r) fun c => a.foldl (fun c p => c.set p.1 p.2) c).nodes.get r).attributes =
      a := by
  refine (congrArg Node.attributes (Store.get_modify w.nodes r r _)).trans ?_
  rw [if_pos rfl, hempty]
  exact Attributes.foldl_set_append a [] hd

/-- A list is given other elements. -/
theorem leaves_modifyList (w : World ε) (l : Ref .list) (f : Array Value → Array Value) :
    Leaves (.list l) w { w with lists := w.lists.modify l f } := by
  refine ⟨Nat.le_refl _, Store.size_modify .., fun _ _ => rfl, fun _ _ _ => rfl, fun l' _ hne => ?_⟩
  exact congrArg Array.toList
    ((Store.get_modify w.lists l l' f).trans (if_neg fun e => hne (congrArg Value.list e)))

theorem absent_node (w : World ε) : Absent w (.node w.nodes.next) :=
  ⟨fun r h => by cases h; exact Nat.le_refl _, nofun⟩

theorem absent_list (w : World ε) : Absent w (.list w.lists.next) :=
  ⟨nofun, fun l h => by cases h; exact Nat.le_refl _⟩

/-- What is not there now was not there before. -/
theorem Absent.before (h : Absent w' x) (hl : Leaves u w w') : Absent w x :=
  ⟨fun r hr => Nat.le_trans hl.nodesSize (h.1 r hr),
    fun l hr => Nat.le_trans hl.listsSize (h.2 l hr)⟩

/-- The twin that a node gets carries nothing yet. -/
theorem attributes_newNode (h : Leaves .none (w.newNode ⟨(w.nodes.get r).cls, []⟩).2 w') :
    (w'.nodes.get w.nodes.next).attributes = [] := by
  rw [h.nodes _ (by simp [World.newNode, Store.add, Store.next]) nofun]
  refine (congrArg Node.attributes (Store.get_add w.nodes _ _)).trans ?_
  rw [if_pos rfl]

/-- The twin that a list gets holds nothing yet. -/
theorem items_storeList (w : World ε) : (w.storeList []).2.items w.lists.next = [] := by
  refine (congrArg Array.toList (Store.get_add w.lists _ _)).trans ?_
  rw [if_pos rfl]

theorem map_fst_standAll (m : Value → Option Value) (a : Attributes) :
    (standAll m a).map Prod.fst = a.map Prod.fst := by
  simp [standAll, Function.comp_def]

/-- A node gets a twin that carries nothing yet. -/
theorem Twins.newNode (h : Twins b G m w) (hr : G (.node r)) (hb : r.index < b.nodes.cells.size)
    (hm : ∀ u, m' u = if u = .node r then some (.node w.nodes.next) else m u) :
    Twins b G m' (w.newNode ⟨(w.nodes.get r).cls, []⟩).2 := by
  have hl := leaves_newNode w ⟨(w.nodes.get r).cls, []⟩
  have hx := absent_node w
  refine (h.after (x := .none) hl ⟨nofun, nofun⟩ ⟨_, _, rfl⟩).add hr ?_ (fun u hu => ?_) hm
  · refine .node h.leaves.nodesSize (by simp [World.newNode, Store.add, Store.next]) ?_
    refine (congrArg Node.cls (Store.get_add w.nodes _ _)).trans ?_
    rw [if_pos rfl]
    exact h.leaves.cls r hb
  · exact (h.twin u _ hu).2.ne hx rfl

/-- A list gets a twin that holds nothing yet. -/
theorem Twins.newList (h : Twins b G m w) (hl : G (.list l))
    (hm : ∀ u, m' u = if u = .list l then some (.list w.lists.next) else m u) :
    Twins b G m' (w.storeList []).2 := by
  have hx := absent_list w
  refine (h.after (x := .none) (leaves_storeList w []) ⟨nofun, nofun⟩ ⟨_, _, rfl⟩).add hl ?_
    (fun u hu => ?_) hm
  · exact .list h.leaves.listsSize (by simp [World.storeList, Store.add, Store.next])
  · exact (h.twin u _ hu).2.ne hx rfl

end Making

/-! ## Objects without a twin -/

/-- How many nodes and lists of a world nothing is known of. -/
def spare (b : World ε) (known : Value → Bool) : Nat :=
  (List.range b.nodes.cells.size).countP (fun i => !known (.node ⟨i⟩)) +
    (List.range b.lists.cells.size).countP fun i => !known (.list ⟨i⟩)

theorem countP_lt_countP {α : Type} {p q : α → Bool} {s : List α} {a : α}
    (h : ∀ y, p y = true → q y = true) (ha : a ∈ s) (hp : p a = false) (hq : q a = true) :
    s.countP p < s.countP q := by
  induction s with
  | nil => cases ha
  | cons y rest ih =>
    have hle : rest.countP p ≤ rest.countP q := List.countP_mono_left fun y _ => h y
    rw [List.countP_cons, List.countP_cons]
    rcases List.mem_cons.1 ha with rfl | ha
    · rw [if_neg (by simp [hp]), if_pos hq]
      exact Nat.lt_succ_of_le hle
    · have hone : (if p y then 1 else 0) ≤ if q y then 1 else 0 := by
        cases hy : p y with
        | false => simp
        | true => simp [h y hy]
      exact Nat.add_lt_add_of_lt_of_le (ih ha) hone

variable {known known' : Value → Bool}

/-- What is not known later has not been known before. -/
theorem not_known (h : ∀ v, known v = true → known' v = true) (v : Value)
    (hv : (!known' v) = true) : (!known v) = true := by
  cases hk : known v with
  | false => rfl
  | true => simp [h v hk] at hv

theorem spare_mono (h : ∀ v, known v = true → known' v = true) :
    spare b known' ≤ spare b known :=
  Nat.add_le_add (List.countP_mono_left fun _ _ => not_known h _)
    (List.countP_mono_left fun _ _ => not_known h _)

/-- Once something is known of an object, there is one fewer of which nothing is known. -/
theorem spare_lt (h : ∀ v, known v = true → known' v = true) (hd : Duplicable b G v)
    (hp : v.isPlain = false) (hv : known v = false) (hv' : known' v = true) :
    spare b known' < spare b known := by
  have hnot := not_known h
  cases hd with
  | plain hplain => simp [hplain] at hp
  | @node r k stored cls distinct holds =>
    exact Nat.add_lt_add_of_lt_of_le
      (countP_lt_countP (fun i => hnot _) (List.mem_range.2 stored) (by simp [hv'])
        (by simp [hv])) (List.countP_mono_left fun i _ => hnot _)
  | @list l stored holds =>
    exact Nat.add_lt_add_of_le_of_lt (List.countP_mono_left fun i _ => hnot _)
      (countP_lt_countP (fun i => hnot _) (List.mem_range.2 stored) (by simp [hv'])
        (by simp [hv]))

/-- There are no more objects without a twin than a copy may lie deep. -/
theorem spare_le (b : World ε) (known : Value → Bool) : spare b known ≤ b.extent * b.extent := by
  have hnodes := List.countP_le_length (p := fun i => !known (.node ⟨i⟩))
    (l := List.range b.nodes.cells.size)
  have hlists := List.countP_le_length (p := fun i => !known (.list ⟨i⟩))
    (l := List.range b.lists.cells.size)
  rw [List.length_range] at hnodes hlists
  have hone : spare b known ≤ b.extent := by
    unfold spare World.extent
    omega
  exact Nat.le_trans hone (Nat.le_mul_of_pos_left _ (by unfold World.extent; omega))

/-! ## How deep a copy goes -/

section Depth

variable {α : Type} {memo : Memo α}

/-- What holds as long as nothing is forgotten. -/
def Lasting (P : Memo α → Prop) : Prop :=
  ∀ m m' : Memo α, (∀ v c, m.find? v = some c → m'.find? v = some c) → P m → P m'

/-- A copy may still go so deep as there are objects without a twin; those that are being copied
have one. -/
def Ready (b : World ε) (fuel : Nat) (begun : List (Value × Nat)) (m : Memo α) : Prop :=
  spare b (fun v => (m.find? v).isSome) ≤ fuel ∧ ∀ p ∈ begun, (m.find? p.1).isSome = true

theorem isSome_mono {m m' : Value → Option α} (h : ∀ v c, m v = some c → m' v = some c)
    (v : Value) (hv : (m v).isSome = true) : (m' v).isSome = true := by
  obtain ⟨c, hc⟩ := Option.isSome_iff_exists.1 hv
  simp [h v c hc]

theorem lasting_ready (b : World ε) (fuel : Nat) (begun : List (Value × Nat)) :
    Lasting (Ready (α := α) b fuel begun) := fun _ _ h hm =>
  ⟨Nat.le_trans (spare_mono (isSome_mono h)) hm.1, fun p hp => isSome_mono h p.1 (hm.2 p hp)⟩

/-- An object that is begun gets its twin, so that a copy may go less deep from then on. -/
theorem Ready.insert (hb : ∀ v, G v → Duplicable b G v) {v : Value} (hv : G v)
    (hplain : v.isPlain = false) {fuel : Nat} {begun : List (Value × Nat)}
    (hm : Ready b fuel begun memo) (hnew : memo.find? v = none) (a : α) (known : Nat) :
    ∃ fuel', fuel = fuel' + 1 ∧ Ready b fuel' ((v, known) :: begun) (memo.insert v a) := by
  have hmono : ∀ u, (memo.find? u).isSome = true → ((memo.insert v a).find? u).isSome = true := by
    intro u hu
    rw [Memo.find?_insert]
    split
    · rfl
    · exact hu
  have hc : ((memo.insert v a).find? v).isSome = true := by simp [Memo.find?_insert]
  have hv' : (memo.find? v).isSome = false := by simp [hnew]
  have hlt := spare_lt hmono (hb v hv) hplain hv' hc
  obtain ⟨fuel', rfl⟩ : ∃ fuel', fuel = fuel' + 1 := ⟨fuel - 1, by have := hm.1; omega⟩
  refine ⟨fuel', rfl, by have := hm.1; omega, ?_⟩
  rintro p (_ | ⟨_, hp⟩)
  · exact hc
  · exact hmono p.1 (hm.2 p hp)

theorem isShared_of_plain {v : Value} (hv : v.isPlain = true) : isShared v = true := by
  cases v <;> first | rfl | cases hv

theorem Duplicable.isShared_eq {v : Value} (h : Duplicable b G v) (hv : v.isPlain = false) :
    isShared v = false := by
  cases h with
  | plain h => simp [h] at hv
  | node => rfl
  | list => rfl

/-- No object is met again while it is copied before it has a twin. -/
theorem Ready.lookup {fuel : Nat} {begun : List (Value × Nat)} (hm : Ready b fuel begun memo)
    {v : Value} (hnew : memo.find? v = none) (n : Nat) : begun.lookup v ≠ some n := by
  intro h
  obtain ⟨l₁, l₂, rfl, -⟩ := List.lookup_eq_some_iff.1 h
  have := hm.2 (v, n) (by simp)
  simp [hnew] at this

end Depth

end Copying

end GuardedWalk
