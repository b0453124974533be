import GuardedWalk.Copying.Shallow
import GuardedWalk.Copying.Memo
import GuardedWalk.Proofs.World.Frame

/-!
# Copying adds

Whatever is copied, the objects that there are stay as they are: copying adds objects and changes
nothing but what it has added. What an act has done can be read off its success, one step after the
other.

## Main definitions

* `GuardedWalk.Copying.Does` — something is done that remembers, and it succeeds.
* `GuardedWalk.Copying.Adds` — nodes, lists, tuples and exceptions stay as they are.

## Main results

* `GuardedWalk.Copying.does_bind` — what is done one after the other.
* `GuardedWalk.Copying.makeException_adds` — an exception that is made is added.
-/

set_option autoImplicit false

namespace GuardedWalk

/-- Where nothing has been written, there is the default object. -/
theorem Store.get_of_le {k : Kind} {α : Type} [Inhabited α] {s : Store k α} {r : Ref k}
    (h : s.cells.size ≤ r.index) : s.get r = default := by
  simp [get, Array.getD_eq_getD_getElem?, Array.getElem?_eq_none h]

/-- What has been added to a store may be changed. -/
theorem Store.Grows.modify {k : Kind} {α β : Type} [Inhabited α] {view : α → β} {s s' : Store k α}
    (h : Grows view s s') {r : Ref k} (hr : s.cells.size ≤ r.index) (f : α → α) :
    Grows view s (s'.modify r f) := by
  refine ⟨Nat.le_trans h.1 (size_modify s' r f), fun r' hr' => ?_⟩
  rw [get_modify, if_neg, h.2 r' hr']
  rintro rfl
  exact Nat.not_lt_of_le hr hr'

namespace Copying

open Act

variable {ε α β γ : Type}

section Doing

/-- Something is done while it is remembered what there is to remember, and it succeeds. -/
def Does (x : StateT (Memo γ) (Act ε) α) (m : Memo γ) (w : World ε) (a : α) (m' : Memo γ)
    (w' : World ε) : Prop :=
  (x.run m).run w = (.ok (a, m'), w')

variable {m m' m'' : Memo γ} {w w' w'' : World ε} {a : α} {b : β}

theorem run_bind_ok {x : Act ε α} {k : α → Act ε β} :
    (x >>= k).run w = (.ok b, w'') ↔
      ∃ a w', x.run w = (.ok a, w') ∧ (k a).run w' = (.ok b, w'') := by
  rw [run_bind]
  rcases x.run w with ⟨f | a, w'⟩
  · refine ⟨fun h => ?_, fun ⟨_, _, h, _⟩ => ?_⟩ <;> cases h
  · exact ⟨fun h => ⟨a, w', rfl, h⟩, fun ⟨_, _, h, hk⟩ => by cases h; exact hk⟩

theorem does_bind {x : StateT (Memo γ) (Act ε) α} {k : α → StateT (Memo γ) (Act ε) β} :
    Does (x >>= k) m w b m'' w'' ↔
      ∃ a m' w', Does x m w a m' w' ∧ Does (k a) m' w' b m'' w'' := by
  simp only [Does, StateT.run_bind, run_bind_ok, Prod.exists]

theorem does_pure {x : α} : Does (pure x) m w a m' w' ↔ x = a ∧ m = m' ∧ w = w' :=
  ⟨fun h => by cases h; exact ⟨rfl, rfl, rfl⟩, by rintro ⟨rfl, rfl, rfl⟩; rfl⟩

theorem does_lift {x : Act ε α} :
    Does (x : StateT (Memo γ) (Act ε) α) m w a m' w' ↔ x.run w = (.ok a, w') ∧ m = m' := by
  simp only [Does, StateT.run_monadLift, monadLift_self, run_bind_ok, run_pure]
  constructor
  · rintro ⟨a', w₁, h, h'⟩
    cases h'
    exact ⟨h, rfl⟩
  · rintro ⟨h, rfl⟩
    exact ⟨a, w', h, rfl⟩

theorem does_get {a : Memo γ} :
    Does (get : StateT (Memo γ) (Act ε) (Memo γ)) m w a m' w' ↔ m = a ∧ m = m' ∧ w = w' :=
  ⟨fun h => by cases h; exact ⟨rfl, rfl, rfl⟩, by rintro ⟨rfl, rfl, rfl⟩; rfl⟩

theorem does_modify {f : Memo γ → Memo γ} {u : PUnit} :
    Does (modify f : StateT (Memo γ) (Act ε) PUnit) m w u m' w' ↔ f m = m' ∧ w = w' :=
  ⟨fun h => by cases h; exact ⟨rfl, rfl⟩, by rintro ⟨rfl, rfl⟩; rfl⟩

theorem not_does_throw {f : Failure} :
    ¬ Does (throw f : StateT (Memo γ) (Act ε) α) m w a m' w' := fun h => nomatch h

theorem run_pure_ok {x : α} : (pure x : Act ε α).run w = (.ok a, w') ↔ x = a ∧ w = w' :=
  ⟨fun h => by cases h; exact ⟨rfl, rfl⟩, by rintro ⟨rfl, rfl⟩; rfl⟩

theorem run_look_ok {f : World ε → Except Failure α} :
    (look f).run w = (.ok a, w') ↔ f w = .ok a ∧ w = w' := by
  rw [run_look]
  exact ⟨fun h => ⟨congrArg Prod.fst h, congrArg Prod.snd h⟩, by rintro ⟨h, rfl⟩; rw [h]⟩

theorem run_see_ok {f : World ε → α} : (see f).run w = (.ok a, w') ↔ f w = a ∧ w = w' :=
  ⟨fun h => by cases h; exact ⟨rfl, rfl⟩, by rintro ⟨rfl, rfl⟩; rfl⟩

theorem run_make_ok {f : World ε → α × World ε} : (make f).run w = (.ok a, w') ↔ f w = (a, w') :=
  ⟨fun h => by cases h; rfl, fun h => by rw [run_make, h]⟩

theorem run_change_ok {f : World ε → World ε} {u : Unit} :
    (change f).run w = (.ok u, w') ↔ f w = w' :=
  ⟨fun h => by cases h; rfl, by rintro rfl; rfl⟩

end Doing

variable {w w' w'' : World ε}

/-- Nothing is done but adding: nodes, lists, tuples and exceptions that are there stay as they
are. -/
structure Adds (w w' : World ε) : Prop where
  nodes : w.nodes.Grows id w'.nodes
  lists : w.lists.Grows id w'.lists
  tuples : w.tuples.Grows id w'.tuples
  exceptions : w.exceptions.Grows id w'.exceptions

theorem Adds.refl (w : World ε) : Adds w w := ⟨.refl .., .refl .., .refl .., .refl ..⟩

theorem Adds.trans (h : Adds w w') (h' : Adds w' w'') : Adds w w'' :=
  ⟨h.nodes.trans h'.nodes, h.lists.trans h'.lists, h.tuples.trans h'.tuples,
    h.exceptions.trans h'.exceptions⟩

/-- A value is no node and no exception that is there. -/
def New (w : World ε) (v : Value) : Prop :=
  (∀ r, v = .node r → w.nodes.cells.size ≤ r.index) ∧
    ∀ r, v = .exception r → w.exceptions.cells.size ≤ r.index

theorem New.before {v : Value} (hv : New w' v) (h : Adds w w') : New w v :=
  ⟨fun r hr => Nat.le_trans h.nodes.1 (hv.1 r hr),
    fun r hr => Nat.le_trans h.exceptions.1 (hv.2 r hr)⟩

/-- What has been added may be changed. -/
theorem Adds.modifyOwn (h : Adds w w') {v : Value} (hv : New w v) (f : Attributes → Attributes) :
    Adds w (w'.modifyOwn v f) := by
  cases v
  case node r => exact { h with nodes := h.nodes.modify (hv.1 r rfl) _ }
  case exception r => exact { h with exceptions := h.exceptions.modify (hv.2 r rfl) _ }
  all_goals exact ⟨h.nodes, h.lists, h.tuples, h.exceptions⟩

theorem Adds.push (h : Adds w w') {l : Ref .list} (hl : w.lists.cells.size ≤ l.index) (v : Value) :
    Adds w (w'.push l v) := { h with lists := h.lists.modify hl _ }

theorem adds_storeList (w : World ε) (vs : List Value) : Adds w (w.storeList vs).2 :=
  ⟨.refl .., Store.grows_add .., .refl .., .refl ..⟩

theorem adds_newTuple (w : World ε) (vs : List Value) : Adds w (w.newTuple vs).2 :=
  ⟨.refl .., .refl .., Store.grows_add .., .refl ..⟩

theorem adds_newException (w : World ε) (cls : ExceptionClass) (args : List Value)
    (a : Attributes) : Adds w (w.newException cls args a).2 :=
  ⟨.refl .., .refl .., Store.grows_add .., Store.grows_add ..⟩

/-- A blank object is added. -/
theorem blank_adds {v x : Value} (hv : ∀ r, v ≠ .exception r)
    (h : (blank v).run w = (.ok x, w')) : Adds w w' ∧ New w x := by
  rw [blank, run_make_ok] at h
  cases v
  case exception r => exact absurd rfl (hv r)
  case node r =>
    cases h
    exact ⟨⟨Store.grows_add .., .refl .., .refl .., .refl ..⟩,
      fun r hr => by cases hr; exact Nat.le_refl _, by simp⟩
  all_goals
    cases h
    exact ⟨⟨.refl .., .refl .., .refl .., .refl ..⟩, by simp, by simp⟩

/-- What an exception is made of leaves what is there alone. -/
theorem exceptionParts_adds {cls : ExceptionClass} {args : List Value}
    {parts : List Value × Attributes} (h : (exceptionParts cls args).run w = (.ok parts, w')) :
    Adds w w' := by
  unfold exceptionParts at h
  split at h
  · cases h
  · simp only [gather, addList, run_bind_ok, run_make_ok, run_look_ok, run_pure_ok] at h
    obtain ⟨items, _, ⟨-, rfl⟩, list, _, hlist, texts, _, ⟨-, rfl⟩, -, rfl⟩ := h
    cases hlist
    exact adds_storeList ..
  · cases h
  · rename_i node visitor thread rest
    by_cases hlen : 2 < rest.length
    · simp only [if_pos hlen, run_bind_ok] at h
      obtain ⟨_, _, h, _⟩ := h
      cases h
    · -- the message is given or else worked out
      simp only [if_neg hlen] at h
      split at h
      · simp only [run_bind_ok, run_look_ok, run_pure_ok] at h
        obtain ⟨-, -, ⟨-, rfl⟩, -, rfl⟩ := h
        exact .refl w
      · cases h
        exact .refl w
  · cases h
  · cases h
    exact .refl w

/-- **An exception that is made is added.** -/
theorem makeException_adds {cls : ExceptionClass} {args : List Value} {r : Ref .exception}
    (h : (makeException cls args).run w = (.ok r, w')) :
    Adds w w' ∧ w.exceptions.cells.size ≤ r.index := by
  simp only [makeException, run_bind_ok, run_make_ok] at h
  obtain ⟨⟨args', a⟩, w₁, hparts, h⟩ := h
  have h₁ := exceptionParts_adds hparts
  cases h
  exact ⟨h₁.trans (adds_newException w₁ cls args' a), h₁.exceptions.1⟩

end Copying

end GuardedWalk
