import GuardedWalk.Proofs.Run.Surroundings
import GuardedWalk.Proofs.World.Guarding
import GuardedWalk.Walk

/-!
# Putting a guard on a value that resists

A first guard takes two assignments, one of the wrapper and one of the tag, and foreign code may
keep either from being made. If it stops the first one, nothing has happened. If it stops the second
one only, the wrapper stays behind without a tag, and nobody can traverse the value any more. In all
other cases a guard is put on as a whole or not at all.

## Main definitions

* `GuardedWalk.Obstruction.Spares` — foreign code that stops an assignment does nothing else.
* `GuardedWalk.World.obstacle?` — whether foreign code stops an assignment.
* `GuardedWalk.World.TakesHalf` — a value on which a guard can be put by halves only.

## Main results

* `GuardedWalk.World.setField_of_mark` — what the assignment of a mark comes to.
* `GuardedWalk.World.untagged_wrapper_refuses` — nobody traverses what has a wrapper but no tag.
* `GuardedWalk.World.install_whole_or_half` — how putting a guard on a value can end.
-/

set_option autoImplicit false

namespace GuardedWalk

variable {ε κ : Type}

/-- Foreign code that keeps attributes of a value from being assigned leaves the value alone, and
what wrappers were made for. -/
structure Obstruction.Spares (obstruct : Obstruction ε) (v : Value) : Prop where
  node : ∀ id w r, v = .node r → (obstruct id w).2.nodes.get r = w.nodes.get r
  wrappers : ∀ id (w : World ε), w.wrappers.Grows Wrapper.content (obstruct id w).2.wrappers

namespace World

variable {w w' : World ε} {v : Value}

/-- No field that an exception has from its class is named like a mark. -/
def Unslotted (w : World ε) (v : Value) : Prop :=
  ∀ r, v = .exception r → ∀ name ∈ Node.marks, (w.exceptions.get r).slots.has name = false

/-- The fields that classes give exceptions are none that guards use. -/
theorem slots_mark (c : ExceptionClass) (args : List Value) (row : Value) {name : String}
    (hn : name ∈ Node.marks) : (c.slots args row).has name = false := by
  simp only [Node.marks, List.mem_cons, List.not_mem_nil, or_false] at hn
  unfold ExceptionClass.slots
  split
  case h_2 => split <;> rcases hn with rfl | rfl <;> rfl
  all_goals rcases hn with rfl | rfl <;> rfl

/-- So it is with every exception that is made. -/
theorem unslotted_newException (w : World ε) (c : ExceptionClass) (args : List Value)
    (attributes : Attributes) :
    (w.newException c args attributes).2.Unslotted
      (.exception (w.newException c args attributes).1) := by
  rintro r hr name hn
  obtain rfl := Value.exception.inj hr
  simp only [newException, storeTuple, Store.get_add, if_true]
  exact slots_mark c args _ hn

/-! ## Assigning a mark -/

/-- An assignment of a mark is made, unless foreign code stops it. -/
theorem setField_of_mark (obstruct : Obstruction ε) {x : Value} {name : String}
    (hv : w.Unslotted v) (ho : (w.own? v).isSome) (hn : name ∈ Node.marks)
    (hx : ∀ s, x ≠ .text s) :
    setField obstruct w v name x =
      match w.obstacle? v name with
      | some id => (.error (obstruct id w).1, (obstruct id w).2)
      | none => (.ok (), w.setOwn v name x) := by
  have hname : (name = Described.nameField || name = Described.fullNameField) = false := by
    simp only [Node.marks, List.mem_cons, List.not_mem_nil, or_false] at hn
    rcases hn with rfl | rfl <;> decide
  have hgetter := getter?_mark (w := w) (v := v) hn
  have hcomputed : name ∉ w.computedNames v := by
    simpa using computedNames_mark (w := w) (v := v) hn
  cases v
  case node r =>
    have ha := hasAttributes_of_own ho
    simp only [setField, setNodeField, obstacle?]
    cases (w.nodes.get r).cls.obstructing? name <;> simp [ha]
  case exception r =>
    simp [setField, setExceptionField, mark_ne_args hn, hv r rfl name hn, obstacle?]
  case method r => simp [own?] at ho
  case function | ownAccept | wrapper | block =>
    cases x
    case text s => exact absurd rfl (hx s)
    all_goals simp [setField, setFunctionField, hname, obstacle?]
  all_goals simp [setField, hcomputed, hgetter (by simp), ho, obstacle?]

/-! ## Values that are left alone -/

/-- What a value carries and shows as its `accept` is as before. -/
structure Untouched (w w' : World ε) (v : Value) : Prop where
  own : w'.own? v = w.own? v
  accept : w'.member v Node.acceptField = w.member v Node.acceptField

theorem Untouched.refl (w : World ε) (v : Value) : Untouched w w v := ⟨rfl, rfl⟩

/-- A value is a node and is as before. -/
def SameNode (w w' : World ε) (v : Value) : Prop :=
  ∃ r, v = .node r ∧ w'.nodes.get r = w.nodes.get r

/-- What the class of a node has under a name is known from the class. -/
theorem classMember?_of_cls {r : Ref .node} (hcls : (w'.nodes.get r).cls = (w.nodes.get r).cls)
    (name : String) : w'.classMember? (.node r) name = w.classMember? (.node r) name := by
  simp only [classMember?, understands, hcls]
  rfl

/-- A node of the same class that carries the same shows the same. -/
theorem Untouched.of_own {r : Ref .node} (hown : w'.own? (.node r) = w.own? (.node r))
    (hcls : (w'.nodes.get r).cls = (w.nodes.get r).cls) : Untouched w w' (.node r) := by
  refine ⟨hown, ?_⟩
  rw [member_of_getter_none rfl, member_of_getter_none rfl]
  simp only [memberHere, hown, classMember?_of_cls hcls, lackingName, typeName, hcls]

/-- A node that is as before shows the same. -/
theorem SameNode.untouched (hs : SameNode w w' v) : Untouched w w' v := by
  obtain ⟨r, rfl, h⟩ := hs
  exact .of_own (by simp only [own?, h]) (by rw [h])

/-- Binding a method and writing to the log touches no value without attributes. -/
theorem untouched_of_bare {m : Member} (ho : w.own? v = none)
    (hm : w.member v Node.acceptField = .ok m) (hc : m.isCallable = true)
    (j : List LogRecord) : Untouched w { (w.reveal v m).2 with journal := j } v := by
  -- to bind a method adds one, which shows in nothing but methods
  have hmethods : ∀ ms, Untouched w { w with methods := ms, journal := j } v ∨
      ∃ r, v = .method r := by
    intro ms
    cases v
    case method r => exact .inr ⟨r, rfl⟩
    case node r => exact .inl (SameNode.untouched ⟨r, rfl, rfl⟩)
    all_goals first
      | (simp [own?] at ho; done)
      | exact .inl ⟨rfl, rfl⟩
  cases m with
  | number x | row items | listing items => cases hc
  | value x | function n =>
    rcases hmethods w.methods with h | ⟨r, rfl⟩
    · exact h
    · exact ⟨rfl, rfl⟩
  | bound n =>
    rcases hmethods (w.methods.add ⟨v, n⟩) with h | ⟨r, rfl⟩
    · exact h
    · -- a method shows no methods of its own
      rw [member_of_getter_none rfl] at hm
      simp only [memberHere, ho, Option.getD_none, Attributes.get?, List.lookup_nil,
        classMember?, methodMember?] at hm
      split at hm
      · rename_i m' hm'
        obtain rfl : m' = .bound n := by simpa using hm
        split at hm'
        · simp at hm'
        · simp at hm'
      · cases hm

/-! ## What is found again on the way -/

@[simp] theorem own?_methods (w : World ε) (ms : Store .method Method) (v : Value) :
    own? { w with methods := ms } v = w.own? v := by
  cases v <;> rfl

@[simp] theorem carried_methods (w : World ε) (ms : Store .method Method) (v : Value) :
    carried { w with methods := ms } v = w.carried v := by
  simp [carried]

@[simp] theorem isGuarded_methods (w : World ε) (ms : Store .method Method) (v : Value) :
    isGuarded { w with methods := ms } v = w.isGuarded v := by
  simp [isGuarded, tag?]

@[simp] theorem obstacle?_methods (w : World ε) (ms : Store .method Method) (v : Value)
    (name : String) : obstacle? { w with methods := ms } v name = w.obstacle? v name := by
  cases v <;> rfl

/-- The `accept` that a value shows may have to be bound before a guard is put on the value. -/
theorem install_shown (obstruct : Obstruction ε) (g : Ref .guard) {m : Member}
    (hm : w.member v Node.acceptField = .ok m) (hc : m.isCallable = true) :
    ∃ ms, (w.reveal v m).2 = { w with methods := ms } ∧
      install obstruct w g v =
        installOn obstruct { w with methods := ms } g v (w.reveal v m).1 := by
  have hrun : install obstruct w g v =
      installOn obstruct (w.reveal v m).2 g v (w.reveal v m).1 := by
    simp [install, hm, hc]
  cases m with
  | number x | row items | listing items => cases hc
  | value x | function n => exact ⟨w.methods, rfl, hrun⟩
  | bound n => exact ⟨w.methods.add ⟨v, n⟩, rfl, hrun⟩

theorem Unslotted.of_slots (hv : w.Unslotted v)
    (h : ∀ r, (w'.exceptions.get r).slots = (w.exceptions.get r).slots) : w'.Unslotted v := by
  intro r hr name hn
  rw [h r]
  exact hv r hr name hn

theorem slots_setOwn (w : World ε) (v : Value) (name : String) (x : Value)
    (r : Ref .exception) :
    ((w.setOwn v name x).exceptions.get r).slots = (w.exceptions.get r).slots := by
  cases v
  case exception => exact Store.view_get_modify ExceptionObject.slots _ _ _ fun _ => rfl
  all_goals rfl

/-- A guard that could not be put on a value is not said to be there. -/
theorem installFailed_run (w : World ε) (v : Value) (f : Failure) :
    ∃ r j, w.installFailed v f = (r, { w with journal := j }) ∧ r ≠ .ok true := by
  unfold installFailed
  split
  · obtain ⟨j, hj⟩ := w.log_eq .debug .guard ("Cannot guard " ++ w.className v)
    exact ⟨.ok false, j, by rw [cannotGuard, say, hj], by simp⟩
  · exact ⟨.error f, w.journal, rfl, by simp⟩

/-! ## How putting a guard on a value can end -/

/-- A guard can be put on a value by halves only: its `accept` can be assigned, its tag cannot. -/
structure TakesHalf (w : World ε) (v : Value) : Prop where
  callable : ∃ m, w.member v Node.acceptField = .ok m ∧ m.isCallable = true
  carries : (w.own? v).isSome
  untagged : w.isGuarded v = false
  accept : w.obstacle? v Node.acceptField = none
  tag : (w.obstacle? v Node.guardField).isSome

/-- A guard has been put on a value: it answers for the value, and the value carries a wrapper that
was made for it around the `accept` that it showed, or the one that it carried if some guard
answered for it before. -/
structure TakenBy (w w' : World ε) (g : Ref .guard) (v : Value) : Prop where
  tag : w'.tag? v = some (.guard g)
  again : w.isGuarded v = true →
    (w'.carried v).get? Node.acceptField = (w.carried v).get? Node.acceptField
  first : w.isGuarded v = false → ∃ m x, w.member v Node.acceptField = .ok m ∧
    (w'.carried v).get? Node.acceptField = some (.wrapper x) ∧
    (w'.wrappers.get x).content = (v, (w.reveal v m).1)

/-- A wrapper has been put on a value around the `accept` that it showed, and no guard answers for
the value. -/
structure HalfTaken (w w' : World ε) (v : Value) : Prop where
  own : ∃ m x, w.member v Node.acceptField = .ok m ∧
    w'.own? v = some ((w.carried v).set Node.acceptField (.wrapper x)) ∧
    (w'.wrappers.get x).content = (v, (w.reveal v m).1)
  untagged : w'.tag? v = none

variable {obstruct : Obstruction ε} {g : Ref .guard}

theorem isGuarded_eq {a : Attributes} (ha : w.own? v = some a) :
    w.isGuarded v = a.has Node.guardField := by
  simp [isGuarded, tag?, ha, Attributes.has]

theorem tag_of_mark (hv : w.Unslotted v) (ho : (w.own? v).isSome) :
    World.tag obstruct w g v =
      match w.obstacle? v Node.guardField with
      | some id => (obstruct id w).2.installFailed v (obstruct id w).1
      | none => (.ok true, w.setOwn v Node.guardField (.guard g)) := by
  unfold World.tag
  rw [setField_of_mark obstruct hv ho Node.guardField_mem_marks (by simp)]
  cases w.obstacle? v Node.guardField <;> rfl

/-- Foreign code that stops an assignment leaves the value as it is. -/
theorem stopped {name : String} {id : Nat} (hq : obstruct.Spares v)
    (hid : w.obstacle? v name = some id) :
    ∃ r w', (obstruct id w).2.installFailed v (obstruct id w).1 = (r, w') ∧ r ≠ .ok true ∧
      SameNode w w' v ∧ w.wrappers.Grows Wrapper.content w'.wrappers := by
  obtain ⟨r, j, hrun, hr⟩ := (obstruct id w).2.installFailed_run v (obstruct id w).1
  refine ⟨r, _, hrun, hr, ?_, hq.wrappers id w⟩
  cases v
  case node n => exact ⟨n, rfl, hq.node id w n rfl⟩
  all_goals cases hid

/-- A guard comes to a value that has one. -/
theorem installOn_again (hq : obstruct.Spares v) (hv : w.Unslotted v) (inner : Value)
    {a : Attributes} (ha : w.own? v = some a) (ht : w.isGuarded v = true) :
    ∃ r w', installOn obstruct w g v inner = (r, w') ∧
      (r = .ok true ∧ w'.tag? v = some (.guard g) ∧
          (w'.carried v).get? Node.acceptField = (w.carried v).get? Node.acceptField ∨
        r ≠ .ok true ∧ SameNode w w' v) := by
  have ho : (w.own? v).isSome := by simp [ha]
  have hrun : installOn obstruct w g v inner = World.tag obstruct w g v := by
    simp [installOn, ha, ← isGuarded_eq ha, ht]
  rw [hrun, tag_of_mark hv ho]
  cases hid : w.obstacle? v Node.guardField with
  | some id =>
    obtain ⟨r, w', hrun, hr, hsame, -⟩ := stopped hq hid
    exact ⟨r, w', hrun, .inr ⟨hr, hsame⟩⟩
  | none =>
    have hc := carried_setOwn ho Node.guardField (.guard g) v
    rw [if_pos rfl] at hc
    refine ⟨_, _, rfl, .inl ⟨rfl, ?_, ?_⟩⟩
    · show ((w.setOwn v Node.guardField (.guard g)).carried v).get? _ = _
      rw [hc, Attributes.get?_set, if_pos rfl]
    · rw [hc, Attributes.get?_set, if_neg (by decide)]

/-! ### The first guard -/

/-- The world after a value has been given a wrapper around `inner`. -/
def hung (w : World ε) (v inner : Value) : World ε :=
  let (x, w) := w.newWrapper v inner
  w.setOwn v Node.acceptField x

theorem still_hung (ho : (w.own? v).isSome) (inner : Value) : Still w (w.hung v inner) :=
  (still_newWrapper w v inner).trans
    (still_setMark (own?_newWrapper ho inner) Node.acceptField_mem_marks _)

theorem own?_hung (ho : (w.own? v).isSome) (inner : Value) : ((w.hung v inner).own? v).isSome :=
  (own?_isSome_frame (still_hung ho inner).toFrame v).trans ho

theorem unslotted_hung (hv : w.Unslotted v) (inner : Value) : (w.hung v inner).Unslotted v :=
  hv.of_slots fun r => slots_setOwn (w.newWrapper v inner).2 v _ _ r

theorem carried_hung (ho : (w.own? v).isSome) (inner : Value) :
    (w.hung v inner).carried v =
      ((w.newWrapper v inner).2.carried v).set Node.acceptField (.wrapper w.wrappers.next) := by
  show ((w.newWrapper v inner).2.setOwn v Node.acceptField (.wrapper w.wrappers.next)).carried v = _
  rw [carried_setOwn (own?_newWrapper ho inner), if_pos rfl]

/-- What the wrapper was made for is known from then on. -/
theorem content_hung (ho : (w.own? v).isSome) (inner : Value)
    (hw : (w.hung v inner).wrappers.Grows Wrapper.content w'.wrappers) :
    (w'.wrappers.get w.wrappers.next).content = (v, inner) := by
  have hgrows := (still_setMark (own?_newWrapper ho inner) Node.acceptField_mem_marks
    (.wrapper w.wrappers.next)).wrappers.trans hw
  rw [hgrows.2 w.wrappers.next (by simp [newWrapper, Store.next, Store.add])]
  simp [newWrapper, Store.get_add, Wrapper.content]

theorem installOn_first (hv : w.Unslotted v) (inner : Value) (ho : (w.own? v).isSome)
    (ht : w.isGuarded v = false) :
    (∀ id, w.obstacle? v Node.acceptField = some id →
      installOn obstruct w g v inner =
        (obstruct id (w.newWrapper v inner).2).2.installFailed v
          (obstruct id (w.newWrapper v inner).2).1) ∧
      (w.obstacle? v Node.acceptField = none →
        installOn obstruct w g v inner = World.tag obstruct (w.hung v inner) g v) := by
  obtain ⟨a, ha⟩ := Option.isSome_iff_exists.1 ho
  have hv₁ : (w.newWrapper v inner).2.Unslotted v := hv.of_slots fun _ => rfl
  have hset := setField_of_mark obstruct (x := (w.newWrapper v inner).1) hv₁
    (own?_newWrapper ho inner) Node.acceptField_mem_marks (by simp [newWrapper])
  rw [obstacle?_frame (still_newWrapper w v inner).toFrame] at hset
  refine ⟨fun id hid => ?_, fun hid => ?_⟩ <;>
    simp only [hid] at hset <;>
    simp only [installOn, ha, ← isGuarded_eq ha, ht, Bool.false_eq_true, if_false, hset]
  rfl

/-- If not even the wrapper can be assigned, nothing happens to the value. -/
theorem installOn_stopped (hq : obstruct.Spares v) (hv : w.Unslotted v) (inner : Value)
    (ho : (w.own? v).isSome) (ht : w.isGuarded v = false)
    (ha : (w.obstacle? v Node.acceptField).isSome) :
    ∃ r w', installOn obstruct w g v inner = (r, w') ∧ r ≠ .ok true ∧ SameNode w w' v := by
  obtain ⟨id, hid⟩ := Option.isSome_iff_exists.1 ha
  have hid₁ : (w.newWrapper v inner).2.obstacle? v Node.acceptField = some id :=
    (obstacle?_frame (still_newWrapper w v inner).toFrame v _).trans hid
  obtain ⟨r, w', hrun, hr, hsame, -⟩ := stopped hq hid₁
  exact ⟨r, w', ((installOn_first hv inner ho ht).1 id hid).trans hrun, hr, hsame⟩

/-- If only the tag cannot be assigned, the wrapper stays behind. -/
theorem installOn_half (hq : obstruct.Spares v) (hv : w.Unslotted v) (inner : Value)
    (ho : (w.own? v).isSome) (ht : w.isGuarded v = false)
    (ha : w.obstacle? v Node.acceptField = none)
    (hg : (w.obstacle? v Node.guardField).isSome) :
    ∃ r w' x, installOn obstruct w g v inner = (r, w') ∧ r ≠ .ok true ∧
      (w'.wrappers.get x).content = (v, inner) ∧ w'.tag? v = none ∧
      w'.own? v = some ((w.carried v).set Node.acceptField (.wrapper x)) := by
  obtain ⟨id, hid⟩ := Option.isSome_iff_exists.1 hg
  have hid₂ : (w.hung v inner).obstacle? v Node.guardField = some id :=
    (obstacle?_frame (still_hung ho inner).toFrame v _).trans hid
  obtain ⟨r, w', hrun, hr, hsame, hgrows⟩ := stopped hq hid₂
  have hown : w'.own? v = some ((w.carried v).set Node.acceptField (.wrapper w.wrappers.next)) := by
    have hc := carried_hung ho inner
    obtain ⟨a, ha⟩ := Option.isSome_iff_exists.1 (own?_hung ho inner)
    have hsame' : (w.newWrapper v inner).2.carried v = w.carried v := by
      cases v
      case node r => rfl
      all_goals cases hid
    rw [hsame'] at hc
    rw [hsame.untouched.own, ha, ← hc]
    simp [carried, ha]
  refine ⟨r, w', w.wrappers.next, ?_, hr, content_hung ho inner hgrows, ?_, hown⟩
  · rw [(installOn_first hv inner ho ht).2 ha]
    simp only [tag_of_mark (unslotted_hung hv inner) (own?_hung ho inner), hid₂, hrun]
  · have htag : (w.carried v).get? Node.guardField = none := by
      simpa [isGuarded, tag?, carried] using ht
    simp only [tag?, hown, Option.getD_some]
    rw [Attributes.get?_set, if_neg (by decide), htag]

/-- If nothing is stopped, the guard is put on. -/
theorem installOn_whole (hv : w.Unslotted v) (inner : Value)
    (ho : (w.own? v).isSome) (ht : w.isGuarded v = false)
    (ha : w.obstacle? v Node.acceptField = none)
    (hg : w.obstacle? v Node.guardField = none) :
    ∃ w' x, installOn obstruct w g v inner = (.ok true, w') ∧
      (w'.wrappers.get x).content = (v, inner) ∧ w'.tag? v = some (.guard g) ∧
      (w'.carried v).get? Node.acceptField = some (.wrapper x) := by
  have hg₂ : (w.hung v inner).obstacle? v Node.guardField = none :=
    (obstacle?_frame (still_hung ho inner).toFrame v _).trans hg
  have ho₂ := own?_hung ho inner
  have hc := carried_setOwn ho₂ Node.guardField (.guard g) v
  rw [if_pos rfl, carried_hung ho inner] at hc
  refine ⟨(w.hung v inner).setOwn v Node.guardField (.guard g), w.wrappers.next, ?_,
    content_hung ho inner (still_setMark ho₂ Node.guardField_mem_marks _).wrappers, ?_, ?_⟩
  · rw [(installOn_first hv inner ho ht).2 ha]
    simp only [tag_of_mark (unslotted_hung hv inner) ho₂, hg₂]
  · show (World.carried _ v).get? _ = _
    rw [hc, Attributes.get?_set, if_pos rfl]
  · rw [hc, Attributes.get?_set, if_neg (by decide), Attributes.get?_set, if_pos rfl]

/-! ### All guards -/

variable {m : Member}

/-- A guard comes to a value that has one. -/
theorem install_again (hq : obstruct.Spares v) (hv : w.Unslotted v)
    (hm : w.member v Node.acceptField = .ok m) (hc : m.isCallable = true)
    (ho : (w.own? v).isSome) (ht : w.isGuarded v = true) :
    ∃ r w', install obstruct w g v = (r, w') ∧
      (r = .ok true ∧ TakenBy w w' g v ∨ r ≠ .ok true ∧ Untouched w w' v) := by
  obtain ⟨ms, -, hrun⟩ := install_shown obstruct g hm hc
  obtain ⟨a, ha⟩ := Option.isSome_iff_exists.1 ho
  obtain ⟨r, w', hrun', hr⟩ := installOn_again (w := { w with methods := ms }) (g := g) hq
    (hv.of_slots fun _ => rfl) (w.reveal v m).1 ((own?_methods w ms v).trans ha)
    ((isGuarded_methods w ms v).trans ht)
  refine ⟨r, w', hrun.trans hrun', ?_⟩
  rcases hr with ⟨hr, htag, haccept⟩ | ⟨hr, hsame⟩
  · rw [carried_methods] at haccept
    exact .inl ⟨hr, htag, fun _ => haccept, fun hf => by simp [ht] at hf⟩
  · exact .inr ⟨hr, SameNode.untouched hsame⟩

/-- The first guard comes to a value: which assignments are stopped decides what becomes of it. -/
theorem install_first (hq : obstruct.Spares v) (hv : w.Unslotted v)
    (hm : w.member v Node.acceptField = .ok m) (hc : m.isCallable = true)
    (ho : (w.own? v).isSome) (ht : w.isGuarded v = false) :
    ∃ r w', install obstruct w g v = (r, w') ∧
      match w.obstacle? v Node.acceptField, w.obstacle? v Node.guardField with
      | some _, _ => r ≠ .ok true ∧ Untouched w w' v
      | none, some _ => r ≠ .ok true ∧ HalfTaken w w' v
      | none, none => r = .ok true ∧ TakenBy w w' g v := by
  obtain ⟨ms, -, hrun⟩ := install_shown obstruct g hm hc
  let w₁ : World ε := { w with methods := ms }
  have hv₁ : w₁.Unslotted v := hv.of_slots fun _ => rfl
  have ho₁ : (w₁.own? v).isSome := by simpa [w₁] using ho
  have ht₁ : w₁.isGuarded v = false := by simpa [w₁] using ht
  rw [hrun]
  cases ha : w.obstacle? v Node.acceptField with
  | some id =>
    obtain ⟨r, w', hrun, hr, hsame⟩ :=
      installOn_stopped (g := g) hq hv₁ (w.reveal v m).1 ho₁ ht₁ (by simp [w₁, ha])
    exact ⟨r, w', hrun, hr, SameNode.untouched hsame⟩
  | none =>
    have ha₁ : w₁.obstacle? v Node.acceptField = none := by simpa [w₁] using ha
    cases hg : w.obstacle? v Node.guardField with
    | some id =>
      obtain ⟨r, w', x, hrun, hr, hcontent, htag, hown⟩ :=
        installOn_half (g := g) hq hv₁ (w.reveal v m).1 ho₁ ht₁ ha₁ (by simp [w₁, hg])
      rw [carried_methods] at hown
      exact ⟨r, w', hrun, hr, ⟨m, x, hm, hown, hcontent⟩, htag⟩
    | none =>
      obtain ⟨w', x, hrun, hcontent, htag, haccept⟩ :=
        installOn_whole (g := g) hv₁ (w.reveal v m).1 ho₁ ht₁ ha₁ (by simp [w₁, hg])
      exact ⟨.ok true, w', hrun, rfl, htag, fun h => by simp [ht] at h,
        fun _ => ⟨m, x, hm, haccept, hcontent⟩⟩

/-- No guard comes to a value that carries no attributes. -/
theorem install_bare (hm : w.member v Node.acceptField = .ok m) (hc : m.isCallable = true)
    (ho : w.own? v = none) :
    ∃ w', install obstruct w g v = (.ok false, w') ∧ Untouched w w' v := by
  obtain ⟨ms, hms, hrun⟩ := install_shown obstruct g hm hc
  let w₁ : World ε := { w with methods := ms }
  obtain ⟨j, hj⟩ := w₁.log_eq .debug .guard ("Cannot guard " ++ w₁.className v)
  refine ⟨{ w₁ with journal := j }, ?_, ?_⟩
  · rw [hrun]
    simp only [installOn, own?_methods, ho, cannotGuard, say]
    rw [hj]
  · have hbare := untouched_of_bare ho hm hc j
    rwa [hms] at hbare

/-! ## What becomes of a half -/

theorem classMember?_guardField (w : World ε) (n : Ref .node) :
    w.classMember? (.node n) Node.guardField = none := by
  have hname : Message.ofName? Node.guardField = none := by decide
  have hne : Node.guardField ≠ Node.acceptField := by decide
  simp only [classMember?, hname, if_neg hne]
  split
  · split <;> rfl
  · rfl

/-- Nothing is found in place of a tag that a node does not carry. -/
theorem member_untagged {n : Ref .node} (htag : w.tag? (.node n) = none) :
    w.member (.node n) Node.guardField =
      .error (.missingAttribute (w.typeName (.node n)) Node.guardField) := by
  have hown : ((w.own? (.node n)).getD []).get? Node.guardField = none := htag
  rw [member_of_getter_none rfl]
  simp only [memberHere, hown, classMember?_guardField, lackingName]

open Surroundings in
/-- **Nobody traverses a node that has a wrapper but no tag.** -/
theorem untagged_wrapper_refuses {n : Ref .node} {x : Ref .wrapper}
    (haccept : (w.carried (.node n)).get? Node.acceptField = some (.wrapper x))
    (hcontent : (w.wrappers.get x).node = .node n) (htag : w.tag? (.node n) = none)
    (F : Foreign ε κ) (t : Thread) (visitor : Value) :
    ∃ σ, (alone (Walk.body F t)).Runs (Walk.send (.node n) .accept [visitor]) (.start w)
      (.error (.missingAttribute (w.typeName (.node n)) Node.guardField)) σ := by
  have hmember : w.member (.node n) Message.accept.name = .ok (.value (.wrapper x)) :=
    member_of_carried rfl haccept
  have hread : (Act.read (.node n) Node.guardField).run w =
      (.error (.missingAttribute (w.typeName (.node n)) Node.guardField), w) := by
    simp only [Act.read, Act.run_bind, Act.run_look, member_untagged htag]
  have hrun : (alone (Walk.body F t)).Yields (.free ε κ) (.start w)
      (Walk.send (.node n) .accept [visitor])
      fun o _ => o = .error (.missingAttribute (w.typeName (.node n)) Node.guardField) := by
    refine .invoke rfl trivial ?_
    refine .bind (alone_look hmember ?_)
    refine .bind (.bind (alone_look (r := .ok (w.fullName (.wrapper x))) rfl ?_))
    refine .pure (.bind (alone_look (r := .ok (w.wrappers.get x)) rfl ?_))
    dsimp only
    rw [hcontent]
    exact .bind (alone_step hread rfl)
  obtain ⟨o, σ, hruns, -, rfl⟩ := hrun
  exact ⟨σ, hruns⟩

/-- Half a guard is all that keeps visitors from a node: they are told that the tag is missing. -/
theorem HalfTaken.refuses {n : Ref .node} (hw : HalfTaken w w' (.node n)) (F : Foreign ε κ)
    (t : Thread) (visitor : Value) :
    ∃ σ, (Surroundings.alone (Walk.body F t)).Runs (Walk.send (.node n) .accept [visitor])
      (.start w') (.error (.missingAttribute (w'.typeName (.node n)) Node.guardField)) σ := by
  obtain ⟨⟨m, x, -, hown, hcontent⟩, htag⟩ := hw
  refine untagged_wrapper_refuses (x := x) ?_ (congrArg Prod.fst hcontent) htag F t visitor
  simp only [carried, hown, Option.getD_some]
  rw [Attributes.get?_set, if_pos rfl]

/-- **A guard is put on a value as a whole or not at all, unless the value takes half of one.** In
that case the value is said not to be guarded, but the wrapper stays, and every visitor fails. -/
theorem install_whole_or_half (hq : obstruct.Spares v) (hv : w.Unslotted v) (g : Ref .guard) :
    ∃ r w', install obstruct w g v = (r, w') ∧
      (w.TakesHalf v → r ≠ .ok true ∧ HalfTaken w w' v ∧
        ∀ (F : Foreign ε κ) t visitor, ∃ σ,
          (Surroundings.alone (Walk.body F t)).Runs (Walk.send v .accept [visitor]) (.start w')
            (.error (.missingAttribute (w'.typeName v) Node.guardField)) σ) ∧
      (¬ w.TakesHalf v → r = .ok true ∧ TakenBy w w' g v ∨ r ≠ .ok true ∧ Untouched w w' v) := by
  by_cases hcallable : ∃ m, w.member v Node.acceptField = .ok m ∧ m.isCallable = true
  case neg =>
    have hrun : install obstruct w g v = (.ok false, w) := by
      unfold install
      split
      · rfl
      · rename_i m hm
        rw [if_neg fun hc => hcallable ⟨m, hm, hc⟩]
    exact ⟨.ok false, w, hrun, fun h => absurd h.callable hcallable,
      fun _ => .inr ⟨by simp, .refl w v⟩⟩
  case pos =>
    obtain ⟨m, hm, hc⟩ := hcallable
    cases ho : w.own? v with
    | none =>
      obtain ⟨w', hrun, hsame⟩ : ∃ w', install obstruct w g v = (.ok false, w') ∧
        Untouched w w' v := install_bare hm hc ho
      exact ⟨.ok false, w', hrun, fun h => by simpa [ho] using h.carries,
        fun _ => .inr ⟨by simp, hsame⟩⟩
    | some a =>
      have hcarries : (w.own? v).isSome := by simp [ho]
      cases ht : w.isGuarded v with
      | true =>
        obtain ⟨r, w', hrun, hr⟩ := install_again (g := g) hq hv hm hc hcarries ht
        exact ⟨r, w', hrun, fun h => by simpa [ht] using h.untagged, fun _ => hr⟩
      | false =>
        obtain ⟨r, w', hrun, hr⟩ := install_first (g := g) hq hv hm hc hcarries ht
        refine ⟨r, w', hrun, fun h => ?_, fun h => ?_⟩
        · obtain ⟨id, hid⟩ := Option.isSome_iff_exists.1 h.tag
          simp only [h.accept, hid] at hr
          refine ⟨hr.1, hr.2, fun F t visitor => ?_⟩
          cases v
          case node n => exact hr.2.refuses F t visitor
          all_goals cases hid
        · cases ha : w.obstacle? v Node.acceptField with
          | some id => exact .inr (by simpa only [ha] using hr)
          | none =>
            cases hg : w.obstacle? v Node.guardField with
            | some id => exact absurd ⟨⟨m, hm, hc⟩, hcarries, ht, ha, by simp [hg]⟩ h
            | none => exact .inl (by simpa only [ha, hg] using hr)

/-! ## A node that takes half a guard -/

namespace Stubborn

/-- A node of a foreign class that can be given any attribute but the tag. -/
def node : Node :=
  ⟨.foreign ⟨0, "Stub", .code, true, some ⟨some Node.guardField⟩, false⟩, []⟩

/-- A world with nothing but the node. -/
def world : World Unit := { World.empty () with nodes := ⟨#[node]⟩ }

/-- The code of its class says that the attribute is missing. -/
def refuse : Obstruction Unit := fun _ w => (.missingAttribute "Stub" Node.guardField, w)

theorem takesHalf : world.TakesHalf (.node ⟨0⟩) where
  callable := ⟨.bound .accept, rfl, rfl⟩
  carries := by decide
  untagged := by decide
  accept := by decide
  tag := by decide

end Stubborn

open Stubborn in
/-- The node is given half a guard. -/
theorem install_leaves_half :
    ∃ r w', install refuse world ⟨0⟩ (.node ⟨0⟩) = (r, w') ∧ r ≠ .ok true ∧
      HalfTaken world w' (.node ⟨0⟩) := by
  have hq : refuse.Spares (.node ⟨0⟩) := ⟨fun _ _ _ _ => rfl, fun _ _ => .refl _ _⟩
  have hv : world.Unslotted (.node ⟨0⟩) := by simp [Unslotted]
  obtain ⟨r, w', hrun, hhalf, -⟩ := install_whole_or_half (κ := Empty) hq hv ⟨0⟩
  obtain ⟨hr, hw, -⟩ := hhalf takesHalf
  exact ⟨r, w', hrun, hr, hw⟩

end World

end GuardedWalk
