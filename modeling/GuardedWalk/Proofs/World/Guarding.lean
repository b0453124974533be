import GuardedWalk.Proofs.World.Frame

/-!
# Guards come and go

Any number of guards may be put on a node and taken off again. All this changes nothing but the two
marks of the node, and these always belong together: a node that is marked shows a wrapper that was
made for it and hides the traversal that the node had before, and a guard answers for it. That
traversal is the one of its class or one of its own; only the former comes back when the guard is
taken off.

## Main definitions

* `GuardedWalk.World.Plain` — a value is no node of a foreign class.
* `GuardedWalk.World.Open` — no foreign code keeps marks of a value from being assigned.
* `GuardedWalk.World.Coherent` — the marks of a node belong together.
* `GuardedWalk.World.Marked` — the same, for a node with a known traversal.
* `GuardedWalk.World.Greets` — the same, for a node of which it is known what becomes of visitors.
* `GuardedWalk.World.Guardable` — a value on which guards may be put.
* `GuardedWalk.World.Footstep`, `Onward` — a step that a walk may take.

## Main results

* `GuardedWalk.World.install_cases`, `install_run` — what putting a guard on a value does.
* `GuardedWalk.World.uninstall_run` — what taking the guard off a value does.
-/

set_option autoImplicit false

namespace GuardedWalk

namespace World

variable {ε : Type} {w w' : World ε}

/-- A value is no node of a foreign class. -/
def Plain (w : World ε) (v : Value) : Prop :=
  ∀ r : Ref .node, v = .node r → ∃ c, (w.nodes.get r).cls = .document c

/-- The marks of a node belong together. -/
inductive Coherent (w : World ε) (r : Ref .node) : Prop where
  /-- The node is not guarded. -/
  | bare (accept : (w.carried (.node r)).get? Node.acceptField = none)
    (tag : (w.carried (.node r)).get? Node.guardField = none)
  /-- The node is guarded: it shows a wrapper around its own traversal. -/
  | guarded (x : Ref .wrapper) (m : Ref .method) (g : Ref .guard)
    (accept : (w.carried (.node r)).get? Node.acceptField = some (.wrapper x))
    (tag : (w.carried (.node r)).get? Node.guardField = some (.guard g))
    (inWrappers : x.index < w.wrappers.cells.size)
    (content : (w.wrappers.get x).content = (.node r, .method m))
    (inMethods : m.index < w.methods.cells.size)
    (method : w.methods.get m = ⟨.node r, .accept⟩)
    (unhidden : w.Unhidden (.guard g))

/-- Whether a value is a node of a foreign class. -/
def isForeignNode (w : World ε) : Value → Bool
  | .node r => (w.nodes.get r).cls.isForeign
  | _ => false

theorem isForeignNode_eq_false_iff {v : Value} : w.isForeignNode v = false ↔ w.Plain v := by
  constructor
  · rintro h r rfl
    simp only [isForeignNode] at h
    cases hc : (w.nodes.get r).cls with
    | document c => exact ⟨c, rfl⟩
    | foreign c => simp [hc, NodeClass.isForeign] at h
  · intro h
    cases v
    case node r =>
      obtain ⟨c, hc⟩ := h r rfl
      simp [isForeignNode, hc, NodeClass.isForeign]
    all_goals rfl

instance (w : World ε) (v : Value) : Decidable (w.Plain v) :=
  decidable_of_iff _ isForeignNode_eq_false_iff

theorem Plain.frame {V : Value → Prop} {v : Value} (h : Plain w v) (hf : Frame V w w') :
    Plain w' v := by
  intro r hr
  obtain ⟨c, hc⟩ := h r hr
  exact ⟨c, (hf.nodes r).trans hc⟩

/-- The class whose code keeps an attribute of a value from being assigned, if any does. -/
def obstacle? (w : World ε) : Value → String → Option Nat
  | .node r, name => (w.nodes.get r).cls.obstructing? name
  | _, _ => none

theorem obstacle?_frame {V : Value → Prop} (hf : Frame V w w') (v : Value) (name : String) :
    w'.obstacle? v name = w.obstacle? v name := by
  cases v <;> simp [obstacle?, hf.nodes]

/-- No foreign code keeps marks of a value from being assigned. -/
def Open (w : World ε) (v : Value) : Prop := ∀ name ∈ Node.marks, w.obstacle? v name = none

theorem Open.frame {V : Value → Prop} {v : Value} (h : Open w v) (hf : Frame V w w') :
    Open w' v := fun name hn => (obstacle?_frame hf v name).trans (h name hn)

theorem Plain.open {v : Value} (h : Plain w v) : Open w v := by
  intro name _
  cases v
  case node r =>
    obtain ⟨c, hc⟩ := h r rfl
    simp [obstacle?, hc, NodeClass.obstructing?]
  all_goals rfl

/-- The marks of a node belong together as long as they stay. -/
theorem Coherent.frame {V : Value → Prop} {r : Ref .node} (h : Coherent w r) (hf : Frame V w w')
    (hc : ∀ name ∈ Node.marks,
      (w'.carried (.node r)).get? name = (w.carried (.node r)).get? name) : Coherent w' r := by
  have ha := hc _ Node.acceptField_mem_marks
  have hg := hc _ Node.guardField_mem_marks
  cases h with
  | bare accept tag => exact .bare (ha.trans accept) (hg.trans tag)
  | guarded x m g accept tag hx content hm method unhidden =>
    refine .guarded x m g (ha.trans accept) (hg.trans tag) ?_ ?_ ?_ ?_ (hf.guards g unhidden)
    · exact Nat.lt_of_lt_of_le hx hf.wrappers.1
    · exact (hf.wrappers.2 x hx).trans content
    · exact Nat.lt_of_lt_of_le hm hf.methods.1
    · exact (hf.methods.2 m hm).trans method

theorem Coherent.of_carried {V : Value → Prop} {r : Ref .node} (h : Coherent w r)
    (hf : Frame V w w') (hc : w'.carried (.node r) = w.carried (.node r)) : Coherent w' r :=
  h.frame hf fun _ _ => by rw [hc]

/-! ## Nodes with a known traversal -/

/-- What a node hides that is traversed by a traversal of its own, or by the one of its class if
there is none. -/
def Hides (w : World ε) (r : Ref .node) : Option (Ref .node) → Value → Prop
  | none, inner => ∃ m : Ref .method, inner = .method m ∧ m.index < w.methods.cells.size ∧
      w.methods.get m = ⟨.node r, .accept⟩
  | some n, inner => inner = .ownAccept n

/-- The marks of a node belong together, and it is known how the node is traversed. -/
structure Marked (w : World ε) (r : Ref .node) (own : Option (Ref .node)) : Prop where
  usual : own = none → w.understands (.node r) .accept = true
  marks :
    ((w.carried (.node r)).get? Node.acceptField = own.map .ownAccept ∧
      (w.carried (.node r)).get? Node.guardField = none) ∨
    ∃ (x : Ref .wrapper) (g : Ref .guard) (inner : Value),
      (w.carried (.node r)).get? Node.acceptField = some (.wrapper x) ∧
      (w.carried (.node r)).get? Node.guardField = some (.guard g) ∧
      x.index < w.wrappers.cells.size ∧ (w.wrappers.get x).content = (.node r, inner) ∧
      w.Hides r own inner ∧ w.Unhidden (.guard g)

/-- What a wrapper hides that has been made for a node: the traversal that its class defines, or
whatever the node showed in its place. -/
def Covers (w : World ε) (r : Ref .node) : Option Value → Value → Prop
  | none, inner => ∃ m : Ref .method, inner = .method m ∧ m.index < w.methods.cells.size ∧
      w.methods.get m = ⟨.node r, .accept⟩
  | some x, inner => inner = x

/-- It is known what becomes of a visitor at a node, be it guarded or not: it comes to the traversal
that the class of the node defines, or to something else that is called in its place. -/
structure Greets (w : World ε) (r : Ref .node) (way : Option Value) : Prop where
  usual : way = none → w.understands (.node r) .accept = true
  marks :
    ((w.carried (.node r)).get? Node.acceptField = way ∧
      (w.carried (.node r)).get? Node.guardField = none) ∨
    ∃ (x : Ref .wrapper) (g : Ref .guard) (inner : Value),
      (w.carried (.node r)).get? Node.acceptField = some (.wrapper x) ∧
      (w.carried (.node r)).get? Node.guardField = some (.guard g) ∧
      x.index < w.wrappers.cells.size ∧ (w.wrappers.get x).content = (.node r, inner) ∧
      w.Covers r way inner ∧ w.Unhidden (.guard g)

theorem hides_iff_covers {r : Ref .node} {own : Option (Ref .node)} {inner : Value} :
    w.Hides r own inner ↔ w.Covers r (own.map .ownAccept) inner := by
  cases own <;> exact Iff.rfl

theorem marked_iff_greets {r : Ref .node} {own : Option (Ref .node)} :
    w.Marked r own ↔ w.Greets r (own.map .ownAccept) := by
  refine ⟨fun h => ⟨fun hn => h.usual (by simpa using hn), ?_⟩,
    fun h => ⟨fun hn => h.usual (by simp [hn]), ?_⟩⟩
  · simpa only [hides_iff_covers] using h.marks
  · simpa only [hides_iff_covers] using h.marks

theorem Covers.frame {V : Value → Prop} {r : Ref .node} {way : Option Value} {inner : Value}
    (h : w.Covers r way inner) (hf : Frame V w w') : w'.Covers r way inner := by
  cases way with
  | none =>
    obtain ⟨m, rfl, hm, hget⟩ := h
    exact ⟨m, rfl, Nat.lt_of_lt_of_le hm hf.methods.1, (hf.methods.2 m hm).trans hget⟩
  | some x => exact h

theorem Hides.frame {V : Value → Prop} {r : Ref .node} {own : Option (Ref .node)} {inner : Value}
    (h : w.Hides r own inner) (hf : Frame V w w') : w'.Hides r own inner :=
  hides_iff_covers.2 ((hides_iff_covers.1 h).frame hf)

theorem understands_frame {V : Value → Prop} (hf : Frame V w w') (r : Ref .node) (m : Message) :
    w'.understands (.node r) m = w.understands (.node r) m := by
  simp only [understands, hf.nodes r]

theorem Greets.frame {V : Value → Prop} {r : Ref .node} {way : Option Value}
    (h : Greets w r way) (hf : Frame V w w') (hc : w'.carried (.node r) = w.carried (.node r)) :
    Greets w' r way where
  usual ho := (understands_frame hf r _).trans (h.usual ho)
  marks := by
    rw [hc]
    refine h.marks.imp id ?_
    rintro ⟨x, g, inner, accept, tag, hx, content, covers, unhidden⟩
    exact ⟨x, g, inner, accept, tag, Nat.lt_of_lt_of_le hx hf.wrappers.1,
      (hf.wrappers.2 x hx).trans content, covers.frame hf, hf.guards g unhidden⟩

theorem Marked.frame {V : Value → Prop} {r : Ref .node} {own : Option (Ref .node)}
    (h : Marked w r own) (hf : Frame V w w') (hc : w'.carried (.node r) = w.carried (.node r)) :
    Marked w' r own :=
  marked_iff_greets.2 ((marked_iff_greets.1 h).frame hf hc)

/-- The marks of a node that is traversed as its class says. -/
theorem marked_none_iff {r : Ref .node} :
    Marked w r none ↔ Coherent w r ∧ w.understands (.node r) .accept = true := by
  constructor
  · rintro ⟨usual, ⟨accept, tag⟩ | ⟨x, g, _, accept, tag, hx, content, ⟨m, rfl, hm, hget⟩, hg⟩⟩
    · exact ⟨.bare accept tag, usual rfl⟩
    · exact ⟨.guarded x m g accept tag hx content hm hget hg, usual rfl⟩
  · rintro ⟨h, usual⟩
    refine ⟨fun _ => usual, ?_⟩
    cases h with
    | bare accept tag => exact .inl ⟨accept, tag⟩
    | guarded x m g accept tag hx content hm method unhidden =>
      exact .inr ⟨x, g, _, accept, tag, hx, content, ⟨m, rfl, hm, method⟩, unhidden⟩

/-! ## Assigning marks -/

theorem mark_ne_args {name : String} (hn : name ∈ Node.marks) : name ≠ "args" := by
  simp only [Node.marks, List.mem_cons, List.not_mem_nil, or_false] at hn
  rcases hn with rfl | rfl <;> decide

/-- No class works out what it shows under a mark. -/
theorem getter?_mark {v : Value} {name : String} (hn : name ∈ Node.marks)
    (hv : ∀ r, v ≠ .exception r) : w.getter? v name = none := by
  simp only [Node.marks, List.mem_cons, List.not_mem_nil, or_false] at hn
  cases v
  case exception r => exact absurd rfl (hv r)
  case policy r =>
    simp only [getter?]
    split
    · rcases hn with rfl | rfl <;> rfl
    · rfl
  all_goals rcases hn with rfl | rfl <;> rfl

theorem computedNames_mark {v : Value} {name : String} (hn : name ∈ Node.marks) :
    (w.computedNames v).contains name = false := by
  simp only [Node.marks, List.mem_cons, List.not_mem_nil, or_false] at hn
  cases v
  case policy r =>
    simp only [computedNames]
    split <;> rcases hn with rfl | rfl <;> decide
  case observer r =>
    simp only [computedNames]
    split <;> rcases hn with rfl | rfl <;> decide
  all_goals rcases hn with rfl | rfl <;> rfl

/-- Assigning a field of an exception changes no attribute of any value. -/
theorem still_setException (w : World ε) (r : Ref .exception) (slots : Attributes) :
    Still w { w with
      exceptions := w.exceptions.set r { w.exceptions.get r with slots := slots } } := by
  have hc : ∀ v : Value, carried { w with
      exceptions := w.exceptions.set r { w.exceptions.get r with slots := slots } } v =
        w.carried v := by
    intro v
    cases v
    case exception r' =>
      simp only [carried, own?, Store.get_set]
      split <;> simp_all
    all_goals rfl
  have hg : ∀ v : Value, ∀ name, name ∉ Node.marks → (carried { w with
      exceptions := w.exceptions.set r { w.exceptions.get r with slots := slots } } v).get? name =
        (w.carried v).get? name := fun v name _ => by rw [hc v]
  exact {
    tuples := .refl _ _, methods := .refl _ _, wrappers := .refl _ _, nodes := fun _ => rfl
    carried := fun v _ => hg v
    guards := fun g => unhidden_of_carried (hg _)
    sessionsSize := Nat.le_refl _
    sessions := fun s _ name hn _ _ => hg _ name hn
    lists := rfl, observers := fun _ => rfl, policies := fun _ => rfl, foreign := rfl
    tokens := fun k => hg _ }

theorem hasAttributes_of_own {r : Ref .node} (ho : (w.own? (.node r)).isSome) :
    (w.nodes.get r).cls.hasAttributes = true := by
  rw [own?] at ho
  split at ho
  · assumption
  · cases ho

/-- A mark can be assigned to whatever carries attributes, and nothing but that happens. -/
theorem setField_mark (obstruct : Obstruction ε) {v x : Value} {name : String}
    (hv : Open w v) (ho : (w.own? v).isSome) (hn : name ∈ Node.marks) (hx : ∀ s, x ≠ .text s) :
    ∃ w', setField obstruct w v name x = (.ok (), w') ∧ Still w w' ∧
      (w' = w.setOwn v name x ∨ w'.nodes = w.nodes ∧ ∀ r, v ≠ .node r) := by
  have hset := still_setMark ho hn x
  have hname : (name = Described.nameField || name = Described.fullNameField) = false := by
    simp only [Node.marks, List.mem_cons, List.not_mem_nil, or_false] at hn
    rcases hn with rfl | rfl <;> decide
  have hgetter := getter?_mark (w := w) (v := v) hn
  have hcomputed : name ∉ w.computedNames v := by
    simpa using computedNames_mark (w := w) (v := v) hn
  cases v
  case node r => exact ⟨_, setNodeField_ok (hv name hn) (hasAttributes_of_own ho) x, hset, .inl rfl⟩
  case exception r =>
    simp only [setField, setExceptionField, mark_ne_args hn, if_false]
    split
    · exact ⟨_, rfl, still_setException w r _, .inr ⟨rfl, by simp⟩⟩
    · exact ⟨_, rfl, hset, .inl rfl⟩
  case method r => simp [own?] at ho
  case function | ownAccept | wrapper | block =>
    refine ⟨_, ?_, hset, .inl rfl⟩
    cases x
    case text s => exact absurd rfl (hx s)
    all_goals simp [setField, setFunctionField, hname]
  all_goals
    refine ⟨_, ?_, hset, .inl rfl⟩
    simp [setField, hcomputed, hgetter (by simp), ho]

/-! ## Putting a guard on a value -/

theorem still_cannotGuard (w : World ε) (v : Value) :
    ∃ w', w.cannotGuard v = (.ok false, w') ∧ Still w w' ∧ w'.nodes = w.nodes := by
  obtain ⟨j, hj⟩ := w.log_eq .debug .guard ("Cannot guard " ++ w.className v)
  refine ⟨_, rfl, ?_⟩
  rw [say, hj]
  exact ⟨still_journal w j, rfl⟩

theorem tag_run (obstruct : Obstruction ε) {v : Value} (hv : Open w v)
    (ho : (w.own? v).isSome) (g : Ref .guard) :
    ∃ w', tag obstruct w g v = (.ok true, w') ∧ Still w w' ∧
      (w' = w.setOwn v Node.guardField (.guard g) ∨ w'.nodes = w.nodes ∧ ∀ r, v ≠ .node r) := by
  obtain ⟨w', hrun, hw⟩ :=
    setField_mark obstruct (x := .guard g) hv ho Node.guardField_mem_marks
      (by simp)
  exact ⟨w', by simp [tag, hrun], hw⟩

/-- Whether a value can carry attributes does not change. -/
theorem own?_isSome_frame {V : Value → Prop} (hf : Frame V w w') (v : Value) :
    (w'.own? v).isSome = (w.own? v).isSome := by
  cases v
  case node r =>
    simp only [own?, hf.nodes r]
    split <;> rfl
  all_goals rfl

theorem own?_of_nodes (h : w'.nodes = w.nodes) (r : Ref .node) :
    w'.own? (.node r) = w.own? (.node r) := by
  simp only [own?, h]

theorem carried_of_nodes (h : w'.nodes = w.nodes) (r : Ref .node) :
    w'.carried (.node r) = w.carried (.node r) := by
  simp [carried, own?, h]

/-- A node of the same class whose attributes are as before carries the same. -/
theorem own?_of_carried {V : Value → Prop} {r : Ref .node} (hf : Frame V w w')
    (hc : w'.carried (.node r) = w.carried (.node r)) : w'.own? (.node r) = w.own? (.node r) := by
  have hsome := own?_isSome_frame hf (.node r)
  cases ho : w.own? (.node r) with
  | none => simpa [ho] using hsome
  | some a =>
    obtain ⟨a', ha'⟩ := Option.isSome_iff_exists.1 (hsome.trans (by simp [ho]))
    rw [ha']
    simpa [carried, ho, ha'] using hc

/-- Assigning a mark to one value leaves the attributes of all nodes but this one alone. -/
theorem carried_of_mark {v x : Value} {name : String} (ho : (w.own? v).isSome)
    (hw : w' = w.setOwn v name x ∨ w'.nodes = w.nodes ∧ ∀ r, v ≠ .node r) {r : Ref .node}
    (hr : v ≠ .node r) : w'.carried (.node r) = w.carried (.node r) := by
  rcases hw with rfl | ⟨hn, -⟩
  · rw [carried_setOwn ho, if_neg (Ne.symm hr)]
  · exact carried_of_nodes hn r

/-- The world after a guard has been put on a node for the first time. -/
def wrapped (w : World ε) (r : Ref .node) (inner : Value) (g : Ref .guard) : World ε :=
  let (x, w) := w.newWrapper (.node r) inner
  (w.setOwn (.node r) Node.acceptField x).setOwn (.node r) Node.guardField (.guard g)

theorem own?_newWrapper {v : Value} (ho : (w.own? v).isSome) (inner : Value) :
    ((w.newWrapper v inner).2.own? v).isSome :=
  (own?_isSome_frame (still_newWrapper w v inner).toFrame v).trans ho

theorem own?_setMark {v x : Value} {name : String} (ho : (w.own? v).isSome)
    (hn : name ∈ Node.marks) : ((w.setOwn v name x).own? v).isSome :=
  (own?_isSome_frame (still_setMark ho hn x).toFrame v).trans ho

theorem tag?_setOwn {v : Value} (ho : (w.own? v).isSome) (g : Ref .guard) :
    (w.setOwn v Node.guardField (.guard g)).tag? v = some (.guard g) := by
  show ((w.setOwn v Node.guardField (.guard g)).carried v).get? Node.guardField = _
  rw [carried_setOwn ho, if_pos rfl, Attributes.get?_set, if_pos rfl]

theorem tag?_wrapped {r : Ref .node} (ho : (w.own? (.node r)).isSome) (inner : Value)
    (g : Ref .guard) : (w.wrapped r inner g).tag? (.node r) = some (.guard g) :=
  tag?_setOwn (own?_setMark (own?_newWrapper ho inner) Node.acceptField_mem_marks) g

/-- A guard that comes to a value after another one changes the tag. -/
theorem installOn_again_run (obstruct : Obstruction ε) {v : Value} (hv : Open w v)
    (ho : (w.own? v).isSome) (hg : (w.carried v).has Node.guardField = true) (g : Ref .guard)
    (inner : Value) :
    ∃ w', installOn obstruct w g v inner = (.ok true, w') ∧ Still w w' ∧
      (∀ r, v ≠ .node r → w'.carried (.node r) = w.carried (.node r)) ∧
      ∀ r, v = .node r → w' = w.setOwn v Node.guardField (.guard g) := by
  obtain ⟨a, hown⟩ := Option.isSome_iff_exists.1 ho
  obtain ⟨w', hrun, hstill, hw⟩ := tag_run obstruct hv ho g
  have ha : a.has Node.guardField = true := by simpa [carried, hown] using hg
  refine ⟨w', by simp [installOn, hown, ha, hrun], hstill, fun r => carried_of_mark ho hw, ?_⟩
  rintro r rfl
  exact hw.resolve_right fun h => h.2 r rfl

/-- The first guard that comes to a value makes a wrapper, which becomes the `accept` of the value,
and then sets the tag. -/
theorem installOn_first_run (obstruct : Obstruction ε) {v : Value} (hv : Open w v)
    (ho : (w.own? v).isSome) (hg : ¬ (w.carried v).has Node.guardField = true) (g : Ref .guard)
    (inner : Value) :
    ∃ w', installOn obstruct w g v inner = (.ok true, w') ∧ Still w w' ∧
      (∀ r, v ≠ .node r → w'.carried (.node r) = w.carried (.node r)) ∧
      ∀ r, v = .node r → w' = w.wrapped r inner g := by
  obtain ⟨a, hown⟩ := Option.isSome_iff_exists.1 ho
  have ha : ¬ a.has Node.guardField = true := by simpa [carried, hown] using hg
  let w₁ := (w.newWrapper v inner).2
  have h₁ : Still w w₁ := still_newWrapper w v inner
  have ho₁ : (w₁.own? v).isSome := own?_newWrapper ho inner
  obtain ⟨w₂, hrun₂, h₂, hw₂⟩ := setField_mark obstruct (x := (w.newWrapper v inner).1)
    (hv.frame h₁.toFrame) ho₁ Node.acceptField_mem_marks
    (by simp [newWrapper])
  have ho₂ : (w₂.own? v).isSome := (own?_isSome_frame h₂.toFrame v).trans ho₁
  obtain ⟨w₃, hrun₃, h₃, hw₃⟩ := tag_run obstruct ((hv.frame h₁.toFrame).frame h₂.toFrame) ho₂ g
  refine ⟨w₃, ?_, (h₁.trans h₂).trans h₃, fun r hr => ?_, ?_⟩
  · simp only [w₁] at hrun₂
    simp [installOn, hown, ha, hrun₂, hrun₃]
  · rw [carried_of_mark ho₂ hw₃ hr, carried_of_mark ho₁ hw₂ hr]
    rfl
  · rintro r rfl
    rw [hw₃.resolve_right fun h => h.2 r rfl, hw₂.resolve_right fun h => h.2 r rfl]
    rfl

/-- What putting a guard on a value with a known `accept` does. -/
theorem installOn_run (obstruct : Obstruction ε) {v : Value} (hv : Open w v) (g : Ref .guard)
    (inner : Value) :
    ∃ b w', installOn obstruct w g v inner = (.ok b, w') ∧ Still w w' ∧
      (∀ r, v ≠ .node r ∨ w.own? v = none → w'.carried (.node r) = w.carried (.node r)) ∧
      ∀ r, v = .node r → (w.own? v).isSome →
        w' = if (w.carried v).has Node.guardField then w.setOwn v Node.guardField (.guard g)
          else w.wrapped r inner g := by
  by_cases ho : (w.own? v).isSome
  case neg =>
    have hown : w.own? v = none := by simpa using ho
    obtain ⟨w', hrun, hstill, hnodes⟩ := still_cannotGuard w v
    exact ⟨false, w', by simp [installOn, hown, hrun], hstill, fun r _ => carried_of_nodes hnodes r,
      fun _ _ h => absurd h ho⟩
  have hne : ∀ {r : Ref .node}, v ≠ .node r ∨ w.own? v = none → v ≠ .node r := fun h =>
    h.resolve_right fun hnone => by simp [hnone] at ho
  by_cases hg : (w.carried v).has Node.guardField = true
  · obtain ⟨w', hrun, hstill, hothers, hnode⟩ := installOn_again_run obstruct hv ho hg g inner
    exact ⟨true, w', hrun, hstill, fun r hr => hothers r (hne hr),
      fun r hr _ => (hnode r hr).trans (if_pos hg).symm⟩
  · obtain ⟨w', hrun, hstill, hothers, hnode⟩ := installOn_first_run obstruct hv ho hg g inner
    exact ⟨true, w', hrun, hstill, fun r hr => hothers r (hne hr),
      fun r hr _ => (hnode r hr).trans (if_neg hg).symm⟩

/-- A guard that comes later only changes the tag. -/
theorem Greets.retag {r : Ref .node} {way : Option Value} (h : Greets w r way)
    (ho : (w.own? (.node r)).isSome) (ht : (w.carried (.node r)).has Node.guardField = true)
    {g : Ref .guard} (hg : w.Unhidden (.guard g)) :
    Greets (w.setOwn (.node r) Node.guardField (.guard g)) r way := by
  have hset := still_setMark ho Node.guardField_mem_marks (.guard g)
  have hne : Node.acceptField ≠ Node.guardField := by decide
  refine ⟨fun hn => (understands_frame hset.toFrame r _).trans (h.usual hn), ?_⟩
  rcases h.marks with ⟨-, tag⟩ | ⟨x, g', inner, accept, -, hx, content, covers, -⟩
  · simp [Attributes.has, tag] at ht
  · refine .inr ⟨x, g, inner, ?_, ?_, Nat.lt_of_lt_of_le hx hset.wrappers.1,
      (hset.wrappers.2 x hx).trans content, covers.frame hset.toFrame, hset.guards g hg⟩
    · rw [carried_setOwn ho, if_pos rfl, Attributes.get?_set, if_neg hne, accept]
    · rw [carried_setOwn ho, if_pos rfl, Attributes.get?_set, if_pos rfl]

/-- The first guard of a node makes a wrapper around what becomes of visitors at the node. -/
theorem Greets.wrapped {r : Ref .node} {way : Option Value} {inner : Value}
    (hu : way = none → w.understands (.node r) .accept = true)
    (ho : (w.own? (.node r)).isSome) (covers : w.Covers r way inner) {g : Ref .guard}
    (hg : w.Unhidden (.guard g)) : Greets (w.wrapped r inner g) r way := by
  let x := w.wrappers.next
  let w₁ := (w.newWrapper (.node r) inner).2
  let w₂ := w₁.setOwn (.node r) Node.acceptField (.wrapper x)
  have ho₁ : (w₁.own? (.node r)).isSome := own?_newWrapper ho inner
  have ho₂ : (w₂.own? (.node r)).isSome := own?_setMark ho₁ Node.acceptField_mem_marks
  have hf := (still_setMark ho₁ Node.acceptField_mem_marks (.wrapper x)).toFrame.trans
    (still_setMark ho₂ Node.guardField_mem_marks (.guard g)).toFrame
  have hall := (still_newWrapper w (.node r) inner).toFrame.trans hf
  have hx : x.index < w₁.wrappers.cells.size := by
    simp [x, w₁, newWrapper, Store.next, Store.add]
  have hcontent : (w₁.wrappers.get x).content = (.node r, inner) := by
    simp [x, w₁, newWrapper, Store.get_add, Wrapper.content]
  refine ⟨fun hn => (understands_frame hall r _).trans (hu hn), .inr ⟨x, g, inner, ?_,
    tag?_wrapped ho inner g, Nat.lt_of_lt_of_le hx hf.wrappers.1,
    (hf.wrappers.2 _ hx).trans hcontent, covers.frame hall, hall.guards g hg⟩⟩
  show ((w₂.setOwn (.node r) Node.guardField (.guard g)).carried (.node r)).get? _ = _
  rw [carried_setOwn ho₂, if_pos rfl, Attributes.get?_set, if_neg (by decide), carried_setOwn ho₁,
    if_pos rfl, Attributes.get?_set, if_pos rfl]

/-- The marks of a node still belong together after a guard has been put on it, and the guard
answers for it. -/
theorem Marked.guard {r : Ref .node} {own : Option (Ref .node)} (h : Marked w r own)
    (ho : (w.own? (.node r)).isSome) {inner : Value}
    (hides : (w.carried (.node r)).has Node.guardField = false → w.Hides r own inner)
    {g : Ref .guard} (hg : w.Unhidden (.guard g))
    (hw : w' = if (w.carried (.node r)).has Node.guardField then
        w.setOwn (.node r) Node.guardField (.guard g)
      else w.wrapped r inner g) : Marked w' r own ∧ w'.tag? (.node r) = some (.guard g) := by
  split at hw
  · rename_i ht
    rw [hw]
    exact ⟨marked_iff_greets.2 ((marked_iff_greets.1 h).retag ho ht hg), tag?_setOwn ho g⟩
  · rename_i ht
    rw [hw]
    have hcovers := hides_iff_covers.1 (hides (by simpa using ht))
    exact ⟨marked_iff_greets.2 (.wrapped (marked_iff_greets.1 h).usual ho hcovers hg),
      tag?_wrapped ho inner g⟩

/-- What is shown, once it is a value; methods are made anew. -/
theorem still_reveal_callable {v : Value} {m : Member} (hm : m.isCallable = true) :
    Still w (w.reveal v m).2 ∧ (w.reveal v m).2.nodes = w.nodes := by
  cases m with
  | bound m => exact ⟨still_newMethod w v m, rfl⟩
  | value x => exact ⟨.refl w, rfl⟩
  | function m => exact ⟨.refl w, rfl⟩
  | number x => cases hm
  | row items => cases hm
  | listing items => cases hm

/-- What the wrapper of a node is going to hide that carries no guard yet. -/
theorem Greets.reveal {r : Ref .node} {way : Option Value} (h : Greets w r way)
    (ht : (w.carried (.node r)).has Node.guardField = false) {m : Member}
    (hm : w.member (.node r) Node.acceptField = .ok m) :
    (w.reveal (.node r) m).2.Covers r way (w.reveal (.node r) m).1 := by
  rcases h.marks with ⟨accept, -⟩ | ⟨x, g, inner, -, tag, -⟩
  case inr => simp [Attributes.has, tag] at ht
  cases way with
  | none =>
    have hbound : w.member (.node r) Node.acceptField = .ok (.bound .accept) :=
      member_of_understands (h.usual rfl) accept
    obtain rfl : m = .bound .accept := by simpa using hm.symm.trans hbound
    exact ⟨w.methods.next, rfl, by simp [World.reveal, newMethod, Store.next, Store.add],
      by simp [World.reveal, newMethod, Store.get_add]⟩
  | some x =>
    have hvalue : w.member (.node r) Node.acceptField = .ok (.value x) :=
      member_of_carried rfl accept
    obtain rfl : m = .value x := by simpa using hm.symm.trans hvalue
    rfl

/-- A node with a known traversal shows something that can be called. -/
theorem Marked.isCallable {r : Ref .node} {own : Option (Ref .node)} (h : Marked w r own) :
    ∃ m, w.member (.node r) Node.acceptField = .ok m ∧ m.isCallable = true := by
  rcases h.marks with ⟨accept, -⟩ | ⟨x, g, inner, accept, -⟩
  · cases own with
    | none => exact ⟨.bound .accept, member_of_understands (h.usual rfl) accept, rfl⟩
    | some n => exact ⟨_, member_of_carried rfl accept, rfl⟩
  · exact ⟨_, member_of_carried rfl accept, rfl⟩

/-- A guard comes to nothing at a value that shows nothing callable as its `accept`. Otherwise what
is shown is what the guard is to hide. -/
theorem install_shows (obstruct : Obstruction ε) (w : World ε) (g : Ref .guard) (v : Value) :
    (install obstruct w g v = (.ok false, w) ∧
      ∀ m, w.member v Node.acceptField = .ok m → m.isCallable = false) ∨
    ∃ m, w.member v Node.acceptField = .ok m ∧ m.isCallable = true ∧
      install obstruct w g v = installOn obstruct (w.reveal v m).2 g v (w.reveal v m).1 := by
  cases hm : w.member v Node.acceptField with
  | error f => exact .inl ⟨install_of_missing hm, fun m hm' => by cases hm'⟩
  | ok m =>
    by_cases hc : m.isCallable = true
    case neg =>
      refine .inl ⟨by simp [install, hm, hc], fun m' hm' => ?_⟩
      obtain rfl := Except.ok.inj hm'
      simpa using hc
    exact .inr ⟨m, rfl, hc, by simp [install, hm, hc]⟩

/-- Putting a guard on a value does nothing if the value shows nothing callable as its `accept`.
Otherwise it changes nothing but marks, and on nodes no marks but those of the value. -/
theorem install_cases (obstruct : Obstruction ε) {v : Value} (hv : Open w v) (g : Ref .guard) :
    (install obstruct w g v = (.ok false, w) ∧
      ∀ m, w.member v Node.acceptField = .ok m → m.isCallable = false) ∨
    ∃ m b w', w.member v Node.acceptField = .ok m ∧ m.isCallable = true ∧
      install obstruct w g v = (.ok b, w') ∧ Still w w' ∧
      (∀ r, v ≠ .node r ∨ w.own? v = none → w'.carried (.node r) = w.carried (.node r)) ∧
      ∀ r, v = .node r → (w.own? v).isSome →
        w' = if (w.carried v).has Node.guardField then
            (w.reveal v m).2.setOwn v Node.guardField (.guard g)
          else (w.reveal v m).2.wrapped r (w.reveal v m).1 g := by
  rcases install_shows obstruct w g v with hnone | ⟨m, hm, hc, hshown⟩
  · exact .inl hnone
  obtain ⟨h₁, hn₁⟩ := still_reveal_callable (w := w) (v := v) hc
  have hown₁ : ((w.reveal v m).2.own? v).isSome = (w.own? v).isSome :=
    own?_isSome_frame h₁.toFrame v
  obtain ⟨b, w', hrun, h₂, hothers, hnode⟩ :=
    installOn_run obstruct (hv.frame h₁.toFrame) g (w.reveal v m).1
  refine .inr ⟨m, b, w', hm, hc, hshown.trans hrun, h₁.trans h₂, fun r hr => ?_,
    fun r hr ho => ?_⟩
  · refine (hothers r (hr.imp id fun ho => ?_)).trans (carried_of_nodes hn₁ r)
    rw [ho] at hown₁
    simpa using hown₁
  · subst hr
    rw [hnode r rfl (hown₁.trans ho), carried_of_nodes hn₁ r]

/-- Putting a guard on a value changes nothing but marks. -/
theorem still_install (obstruct : Obstruction ε) {v : Value} (hv : Open w v) (g : Ref .guard) :
    Still w (install obstruct w g v).2 := by
  rcases install_cases obstruct hv g with ⟨hrun, -⟩ | ⟨m, b, w', -, -, hrun, hstill, -⟩ <;> rw [hrun]
  · exact .refl w
  · exact hstill

/-- Putting a guard on a value says whether this has been done. It changes nothing but marks, and
marks that belong together still do. -/
theorem install_run (obstruct : Obstruction ε) {v : Value} (hv : Open w v) {g : Ref .guard}
    (hg : w.Unhidden (.guard g)) :
    ∃ b w', install obstruct w g v = (.ok b, w') ∧ Still w w' ∧
      ∀ r own, Marked w r own → Marked w' r own ∧
        (v = .node r → (w.own? v).isSome → w'.tag? v = some (.guard g)) := by
  rcases install_cases obstruct hv g with ⟨hrun, hm⟩ | ⟨m, b, w', hm, hc, hrun, h, hothers, hnode⟩
  · refine ⟨false, w, hrun, .refl w, fun r own hr => ⟨hr, ?_⟩⟩
    rintro rfl
    obtain ⟨m, hm', hc⟩ := hr.isCallable
    simp [hm m hm'] at hc
  · refine ⟨b, w', hrun, h, fun r own hr => ?_⟩
    by_cases hvr : v = .node r ∧ (w.own? v).isSome
    · obtain ⟨rfl, ho⟩ := hvr
      obtain ⟨h₁, hn₁⟩ := still_reveal_callable (w := w) (v := .node r) hc
      have hr₁ := hr.frame h₁.toFrame (carried_of_nodes hn₁ r)
      have hw := hnode r rfl ho
      rw [← carried_of_nodes hn₁ r] at hw
      obtain ⟨hmarked, htag⟩ := hr₁.guard ((own?_isSome_frame h₁.toFrame _).trans ho)
        (fun ht => hides_iff_covers.2
          ((marked_iff_greets.1 hr).reveal ((carried_of_nodes hn₁ r) ▸ ht) hm)) (h₁.guards g hg) hw
      exact ⟨hmarked, fun _ _ => htag⟩
    · have hsame : v ≠ .node r ∨ w.own? v = none := by
        by_cases hvr' : v = .node r
        · exact .inr (by simpa [hvr'] using hvr)
        · exact .inl hvr'
      exact ⟨hr.frame h.toFrame (hothers r hsame), fun hvr' ho => absurd ⟨hvr', ho⟩ hvr⟩

theorem own?_isSome_of_isGuarded {v : Value} (h : w.isGuarded v = true) : (w.own? v).isSome := by
  cases hown : w.own? v with
  | none => simp [isGuarded, tag?, hown, Attributes.get?] at h
  | some a => rfl

theorem get?_erase_marks (a : Attributes) (name : String) :
    ((a.erase Node.guardField).erase Node.acceptField).get? name =
      if name ∈ Node.marks then none else a.get? name := by
  simp only [Attributes.get?_erase, Node.marks, List.mem_cons, List.not_mem_nil, or_false]
  by_cases ha : name = Node.acceptField <;> by_cases hg : name = Node.guardField <;> simp [ha, hg]

/-- A value whose guard has been taken off has none of the marks, and all else as before. -/
theorem get?_carried_uninstall {v : Value} (h : w.isGuarded v = true) (name : String) :
    ((w.uninstall v).2.carried v).get? name =
      if name ∈ Node.marks then none else (w.carried v).get? name := by
  rw [uninstall, if_pos h, carried_modifyOwn (own?_isSome_of_isGuarded h), if_pos rfl,
    get?_erase_marks]

/-- Taking the guard off a value is no matter for any other. -/
theorem carried_uninstall_of_ne {v v' : Value} (hv : v' ≠ v) :
    (w.uninstall v).2.carried v' = w.carried v' := by
  unfold uninstall
  split
  · simp only [carried, own?_modifyOwn_of_ne w hv]
  · rfl

/-- Taking the guard off a value changes nothing but marks, and leaves none. -/
theorem uninstall_run (w : World ε) (v : Value) :
    Still w (w.uninstall v).2 ∧ ∀ r, Coherent w r → Coherent (w.uninstall v).2 r := by
  by_cases h : w.isGuarded v = true
  case neg =>
    rw [uninstall, if_neg h]
    exact ⟨.refl w, fun _ h => h⟩
  have hstill : Still w (w.uninstall v).2 := by
    rw [uninstall, if_pos h]
    exact still_modifyOwn (own?_isSome_of_isGuarded h) fun a name hn => by
      rw [get?_erase_marks, if_neg hn]
  refine ⟨hstill, fun r hr => ?_⟩
  by_cases hv : v = .node r
  · subst hv
    refine .bare ?_ ?_ <;> rw [get?_carried_uninstall h, if_pos (by simp [Node.marks])]
  · exact hr.of_carried hstill.toFrame (carried_uninstall_of_ne (Ne.symm hv))

/-! ## Steps of walks -/

/-- A value on which guards may be put; if this is meant strictly, it is no node of a foreign
class. -/
def Guardable (strict : Bool) (w : World ε) (v : Value) : Prop :=
  w.Open v ∧ (strict = true → w.Plain v)

theorem Plain.guardable {v : Value} (h : w.Plain v) (strict : Bool) : w.Guardable strict v :=
  ⟨h.open, fun _ => h⟩

theorem Guardable.frame {V : Value → Prop} {strict : Bool} {v : Value}
    (h : Guardable strict w v) (hf : Frame V w w') : Guardable strict w' v :=
  ⟨h.1.frame hf, fun hs => (h.2 hs).frame hf⟩

/-- A step of a walk whose walker has a certain token, apart from those that put a guard on a value:
it concerns neither nodes nor other tokens. -/
structure Footstep (k : Ref .token) (w w' : World ε) : Prop extends Mild w w' where
  sameNodes : w'.nodes = w.nodes
  others : ∀ k' : Ref .token, k' ≠ k → ∀ name ∉ Node.marks,
    (w'.carried (.token k')).get? name = (w.carried (.token k')).get? name

theorem Footstep.refl (k : Ref .token) (w : World ε) : Footstep k w w :=
  ⟨.refl w, rfl, fun _ _ _ _ => rfl⟩

/-- Nothing becomes of the marks of a node in such a step. -/
theorem Footstep.marked {k : Ref .token} (h : Footstep k w w') {r : Ref .node}
    {own : Option (Ref .node)} (hr : Marked w r own) : Marked w' r own :=
  hr.frame h.toFrame (carried_of_nodes h.sameNodes r)

/-- The same, if the walk is not over with this step: no session is opened and the one in flight
stays, unless there is none and one is opened. -/
structure Onward (k : Ref .token) (w w' : World ε) : Prop extends Footstep k w w' where
  session :
    w'.sessions.cells.size = w.sessions.cells.size ∧
        w'.ownValue (.token k) Token.sessionField = w.ownValue (.token k) Token.sessionField ∨
      w'.sessions.cells.size = w.sessions.cells.size + 1 ∧
        w.ownValue (.token k) Token.sessionField = .none ∧
        w'.ownValue (.token k) Token.sessionField = .session w.sessions.next

theorem Onward.refl (k : Ref .token) (w : World ε) : Onward k w w :=
  ⟨.refl k w, .inl ⟨rfl, rfl⟩⟩

theorem Onward.of_still {k : Ref .token} (h : Still w w') (hn : w'.nodes = w.nodes)
    (hs : w'.sessions.cells.size = w.sessions.cells.size) : Onward k w w' where
  toMild := h.toMild
  sameNodes := hn
  others k' _ := h.tokens k'
  session := by
    refine .inl ⟨hs, ?_⟩
    have hfield := h.tokens k Token.sessionField (by decide)
    simp only [ownValue_eq, Attributes.value, hfield]

end World

end GuardedWalk
