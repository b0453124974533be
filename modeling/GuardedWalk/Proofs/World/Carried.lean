import GuardedWalk.World.Act

/-!
# What values carry and show

The attributes that a value carries are read back after an assignment, and no other value notices
it. Whoever is sent a message that its class has a method for answers with that method, as long as
no attribute of its own stands in the way.

## Main definitions

* `GuardedWalk.World.carried` — the attributes that a value carries.
* `GuardedWalk.World.Unhidden` — no attribute of a value stands in the way of a method but `accept`.

## Main results

* `GuardedWalk.World.carried_setOwn`, `ownValue_setOwn` — what is carried after an assignment.
* `GuardedWalk.World.member_of_understands` — a method that is not hidden is shown.
-/

set_option autoImplicit false

namespace GuardedWalk

/-- Of two assignments to an attribute the second one counts. -/
theorem Attributes.set_set (a : Attributes) (name : String) (u v : Value) :
    (a.set name u).set name v = a.set name v := by
  induction a with
  | nil => simp [set]
  | cons p rest ih =>
    obtain ⟨n, x⟩ := p
    by_cases hn : n = name <;> simp [set, hn, ih]

/-! ## Going through values -/

/-- Going through values of which each gives something gives all of that, in order. -/
theorem mapM_of_forall {α β : Type} {f : α → Except Failure β} {g : α → β} :
    ∀ {l : List α}, (∀ a ∈ l, f a = .ok (g a)) → l.mapM f = .ok (l.map g)
  | [], _ => rfl
  | a :: rest, h => by
    rw [List.mapM_cons, h a List.mem_cons_self,
      mapM_of_forall fun b hb => h b (List.mem_cons_of_mem a hb)]
    rfl

/-- Going through values of which some give something gives all of that, in order. -/
theorem filterMapM_of_forall {α β γ : Type} {f : α → Except Failure (Option β)} {a : γ → α}
    {g : γ → Option β} :
    ∀ {l : List γ}, (∀ x ∈ l, f (a x) = .ok (g x)) → (l.map a).filterMapM f = .ok (l.filterMap g)
  | [], _ => rfl
  | x :: rest, h => by
    rw [List.map_cons, List.filterMapM_cons, h x List.mem_cons_self,
      filterMapM_of_forall fun y hy => h y (List.mem_cons_of_mem x hy), List.filterMap_cons]
    cases g x <;> rfl

namespace World

variable {ε : Type}

/-! ## Assignments -/

/-- The attributes that a value carries; none if it cannot carry any. -/
def carried (w : World ε) (v : Value) : Attributes := (w.own? v).getD []

theorem lookup_filter_ne {α β : Type} [DecidableEq α] {a b : α} (h : b ≠ a) (l : List (α × β)) :
    (l.filter fun p => p.1 != a).lookup b = l.lookup b := by
  induction l with
  | nil => rfl
  | cons p rest ih =>
    obtain ⟨x, y⟩ := p
    by_cases hx : x = a
    · subst hx
      have hb : (b == x) = false := by simpa using h
      simp [List.lookup_cons, hb, ih]
    · have hne : (x != a) = true := by simpa using hx
      simp [List.lookup_cons, hne, ih]

/-- Noting attributes of one value leaves those of all others as they are. -/
theorem notedOf_noted (w : World ε) {v v' : Value} (h : v' ≠ v) (a : Attributes) :
    notedOf { w with noted := (v, a) :: w.noted.filter fun p => p.1 != v } v' = w.notedOf v' := by
  have hb : (v' == v) = false := by simpa using h
  simp [notedOf, List.lookup_cons, hb, lookup_filter_ne h]

theorem own?_modifyOwn_self {w : World ε} {v : Value} {a : Attributes} (h : w.own? v = some a)
    (f : Attributes → Attributes) : (w.modifyOwn v f).own? v = some (f a) := by
  cases v
  case node r =>
    simp only [own?, Option.ite_none_right_eq_some, Option.some.injEq] at h
    obtain ⟨hc, rfl⟩ := h
    simp [own?, modifyOwn, Store.get_modify, hc]
  all_goals simp_all [own?, modifyOwn, Store.get_modify, notedOf]

theorem own?_modifyOwn_of_ne (w : World ε) {v v' : Value} (h : v' ≠ v)
    (f : Attributes → Attributes) : (w.modifyOwn v f).own? v' = w.own? v' := by
  cases v <;> try rfl
  -- values of different kinds lie in different stores, which leaves pairs of one kind
  all_goals
    cases v' <;> first
      | rfl
      | (simp only [own?, modifyOwn, Store.get_modify]; split <;> simp_all)
      | exact notedOf_noted w h _ ▸ rfl
      | simp only [own?, modifyOwn, notedOf_noted w h]

/-- An assignment to a value that carries attributes sets one of its attributes, and no other value
notices it. -/
theorem carried_setOwn {w : World ε} {v : Value} (h : (w.own? v).isSome) (name : String)
    (x v' : Value) :
    (w.setOwn v name x).carried v' =
      if v' = v then (w.carried v).set name x else w.carried v' := by
  obtain ⟨a, ha⟩ := Option.isSome_iff_exists.1 h
  by_cases hv : v' = v
  · subst hv
    simp [carried, setOwn, own?_modifyOwn_self ha, ha]
  · simp [carried, setOwn, own?_modifyOwn_of_ne w hv, hv]

theorem ownValue_eq (w : World ε) (v : Value) (name : String) :
    w.ownValue v name = (w.carried v).value name := rfl

/-- An attribute that is assigned is read back, and no other one changes. -/
theorem ownValue_of_carried {w : World ε} {v x : Value} {name : String}
    (h : (w.carried v).get? name = some x) : w.ownValue v name = x := by
  simp [ownValue_eq, Attributes.value, h]

/-- A value that is found under a name is carried there, unless it is none. -/
theorem get?_of_ownValue {w : World ε} {v x : Value} {name : String} (h : w.ownValue v name = x)
    (hx : x ≠ .none) : (w.carried v).get? name = some x := by
  rw [ownValue_eq, Attributes.value] at h
  cases hc : (w.carried v).get? name with
  | none => simp [hc, hx.symm] at h
  | some y => simpa [hc] using h

theorem ownValue_setOwn {w : World ε} {v : Value} (h : (w.own? v).isSome) (name : String)
    (x v' : Value) (name' : String) :
    (w.setOwn v name x).ownValue v' name' =
      if v' = v ∧ name' = name then x else w.ownValue v' name' := by
  rw [ownValue_eq, carried_setOwn h]
  by_cases hv : v' = v
  · subst hv
    by_cases hn : name' = name <;> simp [ownValue_eq, Attributes.value, Attributes.get?_set, hn]
  · simp [hv, ownValue_eq]

/-! ## Methods -/

/-- No attribute of a value stands in the way of a method, apart from `accept`. -/
def Unhidden (w : World ε) (v : Value) : Prop :=
  ∀ m : Message, m ≠ .accept → (w.carried v).get? m.name = none

/-- Attributes that have no names of methods hide none. -/
theorem unhidden_of_names {w : World ε} {v : Value}
    (h : ((w.carried v).map Prod.fst).all (fun name => (Message.ofName? name).isNone) = true) :
    w.Unhidden v := by
  intro m _
  rw [Attributes.get?, List.lookup_eq_none_iff]
  intro p hp
  have hm := List.all_eq_true.1 h p.1 (List.mem_map_of_mem hp)
  rw [bne_iff_ne]
  intro hname
  rw [← hname, Message.ofName?_name] at hm
  cases hm

theorem walkerGetter?_name (m : Message) : walkerGetter? m.name = none := by
  cases m
  case entry e => cases e <;> rfl
  all_goals rfl

theorem tokenGetter?_name (m : Message) : tokenGetter? m.name = none := by
  cases m
  case entry e => cases e <;> rfl
  all_goals rfl

theorem parkGetter?_name (m : Message) : parkGetter? m.name = none := by
  cases m
  case entry e => cases e <;> rfl
  all_goals rfl

theorem name_ne_elapsed (m : Message) : m.name ≠ "elapsed" := by
  cases m
  case entry e => cases e <;> decide
  all_goals decide

theorem name_ne_depth (m : Message) : m.name ≠ "depth" := by
  cases m
  case entry e => cases e <;> decide
  all_goals decide

/-- No class works out what it shows under the name of one of its methods. -/
theorem getter?_of_understands {w : World ε} {v : Value} {m : Message}
    (h : w.understands v m = true) : w.getter? v m.name = none := by
  cases v
  case walker => exact walkerGetter?_name m
  case token => exact tokenGetter?_name m
  case session => simp [getter?, name_ne_elapsed]
  case observer => simp [getter?, name_ne_depth]
  case policy r =>
    simp only [getter?]
    split
    · exact parkGetter?_name m
    · rfl
  all_goals first
    | rfl
    | simp [understands] at h

theorem classMember?_of_understands {w : World ε} {v : Value} {m : Message}
    (h : w.understands v m = true) :
    w.classMember? v m.name = some (if m.needsNoObject then .function m else .bound m) := by
  have hm := Message.ofName?_name m
  cases v
  case node r =>
    simp only [understands] at h
    simp only [classMember?, hm]
    cases hc : (w.nodes.get r).cls with
    | document c => simp_all [understands]
    | foreign c =>
      rw [hc] at h
      simp only [Bool.and_eq_true, decide_eq_true_eq] at h
      simp [h.2, understands, hc, h.1]
  all_goals first
    | (simp [understands] at h; done)
    | simp [classMember?, hm, h]

/-- A method that no attribute hides is shown under its name. -/
theorem member_of_understands {w : World ε} {v : Value} {m : Message}
    (hu : w.understands v m = true) (hc : (w.carried v).get? m.name = none) :
    w.member v m.name = .ok (if m.needsNoObject then .function m else .bound m) := by
  rw [member_of_getter_none (getter?_of_understands hu)]
  simp only [carried] at hc
  simp [memberHere, hc, classMember?_of_understands hu]

/-- What a value carries under a name for which its class works nothing out is shown. -/
theorem member_of_carried {w : World ε} {v x : Value} {name : String}
    (hg : w.getter? v name = none) (hc : (w.carried v).get? name = some x) :
    w.member v name = .ok (.value x) := by
  rw [member_of_getter_none hg, memberHere_of_own hc]

/-- A token shows the session in flight, which it carries under a name of its own. -/
theorem member_session_of_carried {w : World ε} {k : Ref .token} {v : Value}
    (hc : (w.carried (.token k)).get? Token.sessionField = some v) :
    w.member (.token k) "session" = .ok (.value v) := by
  simp only [carried, Token.sessionField] at hc
  simp [member, extent, memberWithin, getter?, tokenGetter?, workOut, reached, memberHere,
    Token.sessionField, hc]

end World

/-- Reading what is shown as it is changes nothing. -/
theorem Act.read_run {ε : Type} {w : World ε} {v x : Value} {name : String}
    (hm : w.member v name = .ok (.value x)) : (Act.read v name).run w = (.ok x, w) := by
  simp only [Act.read, Act.run_bind, Act.run_look, hm]
  rfl

end GuardedWalk
