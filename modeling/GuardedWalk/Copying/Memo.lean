import GuardedWalk.Value

/-!
# What is remembered about objects

While something is copied, it is remembered about each object that has been met what stands for it,
or which number it has been given. Objects are kept on shelves by their places in the stores, so a
shelf holds at most one object of each kind, however much is remembered.

## Main definitions

* `GuardedWalk.Copying.shelf` — where a value is kept.
* `GuardedWalk.Copying.Memo` — what is remembered about values.
* `GuardedWalk.Copying.Memo.find?`, `insert` — recalling and remembering.

## Main results

* `GuardedWalk.Copying.Memo.find?_insert` — what has been remembered is recalled, and nothing else
  changes.
-/

set_option autoImplicit false

namespace GuardedWalk

namespace Copying

/-- Where a value is kept: at the place of the object in its store. -/
def shelf : Value → Nat
  | .nan r => r.index
  | .list r => r.index
  | .tuple r => r.index
  | .dictionary r => r.index
  | .exception r => r.index
  | .node r | .ownAccept r => r.index
  | .method r => r.index
  | .wrapper r => r.index
  | .token r | .holding r => r.index
  | .lock r => r.index
  | .condition _ r => r.index
  | .parked r => r.index
  | .config r => r.index
  | .policy r => r.index
  | .session r => r.index
  | .guard r => r.index
  | .adapter r => r.index
  | .walker r => r.index
  | .observer r => r.index
  | .visitor r => r.index
  | _ => 0

/-- What is remembered about values. -/
structure Memo (α : Type) where
  /-- The values with what is remembered about them, by shelf. -/
  shelves : Array (List (Value × α))
  /-- How often something has been remembered. -/
  size : Nat

namespace Memo

variable {α : Type}

/-- Nothing is remembered. -/
def empty : Memo α := ⟨#[], 0⟩

/-- What is remembered about a value. -/
def find? (m : Memo α) (v : Value) : Option α := (m.shelves.getD (shelf v) []).lookup v

/-- Shelves of which there is one more than a number, at least. -/
def extended (shelves : Array (List (Value × α))) (place : Nat) : Array (List (Value × α)) :=
  if place < shelves.size then shelves
  else shelves ++ Array.replicate (place + 1 - shelves.size) []

/-- Remembers something about a value. -/
def insert (m : Memo α) (v : Value) (a : α) : Memo α :=
  ⟨(extended m.shelves (shelf v)).modify (shelf v) ((v, a) :: ·), m.size + 1⟩

theorem size_extended (shelves : Array (List (Value × α))) (place : Nat) :
    place < (extended shelves place).size := by
  unfold extended
  split
  · assumption
  · simp
    omega

/-- More shelves hold nothing more. -/
theorem getD_extended (shelves : Array (List (Value × α))) (place i : Nat) :
    (extended shelves place).getD i [] = shelves.getD i [] := by
  unfold extended
  split
  · rfl
  · simp only [Array.getD_eq_getD_getElem?, Array.getElem?_append, Array.getElem?_replicate]
    by_cases hi : i < shelves.size
    · simp [hi]
    · simp only [hi, if_false, Array.getElem?_eq_none (Nat.le_of_not_lt hi)]
      split <;> rfl

@[simp] theorem find?_empty (v : Value) : (empty : Memo α).find? v = none := by
  simp [find?, empty]

@[simp] theorem size_insert (m : Memo α) (v : Value) (a : α) :
    (m.insert v a).size = m.size + 1 := rfl

/-- What has been remembered about a value is recalled; what is remembered about others stays. -/
theorem find?_insert (m : Memo α) (u v : Value) (a : α) :
    (m.insert v a).find? u = if u = v then some a else m.find? u := by
  have hs := size_extended m.shelves (shelf v)
  have hg := getD_extended m.shelves (shelf v) (shelf u)
  simp only [find?, insert, Array.getD_eq_getD_getElem?, Array.getElem?_modify] at hg ⊢
  by_cases h : u = v
  · subst h
    simp [hs]
  · by_cases hp : shelf v = shelf u
    · rw [hp] at hs hg ⊢
      have hb : (u == v) = false := by simpa using h
      simp only [Array.getElem?_eq_getElem hs, Option.getD_some] at hg
      simp [h, List.lookup_cons, hb, ← hg, hs]
    · simp [h, hp, hg]

end Memo

end Copying

end GuardedWalk
