/-!
# Stores of objects

Objects that can be shared and changed are kept in stores, one for each kind of object, and are
named by references. A reference carries the kind of what it names, so a store of one kind can
only be asked for objects of that kind. A store has a value for every reference: where nothing has
been written yet, it is the default one.

## Main definitions

* `GuardedWalk.Kind` — the kinds of objects.
* `GuardedWalk.Ref` — the references to objects of a kind.
* `GuardedWalk.Store` — the objects of a kind, by reference.
* `GuardedWalk.Store.get`, `set`, `modify`, `add` — reading, writing and adding objects.

## Main results

* `GuardedWalk.Store.get_set` — a written object is read back, all others are as before.
* `GuardedWalk.Store.get_add` — a new object changes no other one.
-/

set_option autoImplicit false

namespace GuardedWalk

/-- The kinds of objects. -/
inductive Kind where
  | nan | node | list | tuple | dictionary | exception | config | policy | parked | lock | condition
  | token | session | guard | adapter | walker | observer | visitor | wrapper | method
deriving DecidableEq, Repr

/-- A reference to an object of a kind. -/
structure Ref (k : Kind) where
  /-- The place of the object in its store. -/
  index : Nat
deriving DecidableEq, Repr, Inhabited

/-- The objects of one kind, the default one where none has been written. -/
structure Store (k : Kind) (α : Type) where
  /-- The objects in the order of their references. -/
  cells : Array α

namespace Store

variable {k : Kind} {α : Type}

/-- A store in which nothing has been written. -/
def empty : Store k α := ⟨#[]⟩

instance : Inhabited (Store k α) := ⟨empty⟩

/-- The reference of the next object to be added. -/
def next (s : Store k α) : Ref k := ⟨s.cells.size⟩

/-- Adds an object, under the next reference. -/
def add (s : Store k α) (a : α) : Store k α := ⟨s.cells.push a⟩

variable [Inhabited α]

/-- The object that a reference names. -/
def get (s : Store k α) (r : Ref k) : α := s.cells.getD r.index default

/-- Writes an object. -/
def set (s : Store k α) (r : Ref k) (a : α) : Store k α :=
  if r.index < s.cells.size then ⟨s.cells.setIfInBounds r.index a⟩
  else ⟨(s.cells ++ Array.replicate (r.index - s.cells.size) default).push a⟩

/-- Changes an object. -/
def modify (s : Store k α) (r : Ref k) (f : α → α) : Store k α :=
  if r.index < s.cells.size then ⟨s.cells.modify r.index f⟩ else s.set r (f default)

@[simp] theorem get_empty (r : Ref k) : (empty : Store k α).get r = default := by
  simp [get, empty]

/-- A written object is read back and no other one changes. -/
theorem get_set (s : Store k α) (r r' : Ref k) (a : α) :
    (s.set r a).get r' = if r' = r then a else s.get r' := by
  obtain ⟨i⟩ := r
  obtain ⟨j⟩ := r'
  simp only [get, set, Ref.mk.injEq]
  split
  · rename_i h
    simp only [Array.getD_eq_getD_getElem?, Array.getElem?_setIfInBounds]
    by_cases hij : i = j
    · subst hij; simp [h]
    · simp [hij, Ne.symm hij]
  · rename_i h
    simp only [Array.getD_eq_getD_getElem?, Array.getElem?_push, Array.size_append,
      Array.size_replicate, Array.getElem?_append, Array.getElem?_replicate]
    by_cases hij : j = i
    · subst hij
      have : j = s.cells.size + (j - s.cells.size) := by omega
      simp [← this]
    · have : ¬ j = s.cells.size + (i - s.cells.size) := by omega
      simp only [this, hij, if_false]
      by_cases hj : j < s.cells.size
      · simp [hj]
      · simp only [hj, if_false]
        split <;> simp [Array.getElem?_eq_none (Nat.le_of_not_lt hj)]

@[simp] theorem get_set_self (s : Store k α) (r : Ref k) (a : α) : (s.set r a).get r = a := by
  simp [get_set]

theorem get_set_of_ne (s : Store k α) {r r' : Ref k} (a : α) (h : r' ≠ r) :
    (s.set r a).get r' = s.get r' := by
  simp [get_set, h]

theorem get_modify (s : Store k α) (r r' : Ref k) (f : α → α) :
    (s.modify r f).get r' = if r' = r then f (s.get r) else s.get r' := by
  unfold modify
  split
  · rename_i h
    obtain ⟨i⟩ := r
    obtain ⟨j⟩ := r'
    simp only [get, Ref.mk.injEq, Array.getD_eq_getD_getElem?, Array.getElem?_modify]
    by_cases hij : j = i
    · subst hij
      simp_all
    · simp [hij, Ne.symm hij]
  · rename_i h
    rw [get_set]
    split
    · rename_i hr
      simp [get, Array.getElem?_eq_none (Nat.le_of_not_lt h)]
    · rfl

/-- A new object is read back and no other one changes. -/
theorem get_add (s : Store k α) (r : Ref k) (a : α) :
    (s.add a).get r = if r = s.next then a else s.get r := by
  obtain ⟨i⟩ := r
  simp only [get, add, next, Ref.mk.injEq, Array.getD_eq_getD_getElem?, Array.getElem?_push]
  split <;> simp_all

end Store

end GuardedWalk
