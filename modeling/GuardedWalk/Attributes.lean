import GuardedWalk.Value

/-!
# Attributes of objects

Objects carry named attributes that can be set and removed one by one.

## Main definitions

* `GuardedWalk.Attributes` — named values in the order in which they were first set.
* `GuardedWalk.Attributes.get?`, `set`, `erase` — reading, setting and removing an attribute.

## Main results

* `GuardedWalk.Attributes.get?_set`, `get?_erase` — what is read after a change.
* `GuardedWalk.Attributes.erase_set` — a new attribute that is removed again leaves no trace.
-/

set_option autoImplicit false

namespace GuardedWalk

/-- The attributes of an object, in the order in which they were first set. -/
abbrev Attributes := List (String × Value)

namespace Attributes

/-- The value of an attribute. -/
def get? (a : Attributes) (name : String) : Option Value := a.lookup name

/-- The value of an attribute, none if it is not set. -/
def value (a : Attributes) (name : String) : Value := (a.get? name).getD .none

/-- Sets an attribute; a new one goes to the end. -/
def set : Attributes → String → Value → Attributes
  | [], name, v => [(name, v)]
  | (n, u) :: rest, name, v => if n = name then (n, v) :: rest else (n, u) :: set rest name v

/-- Removes an attribute. -/
def erase (a : Attributes) (name : String) : Attributes := a.filter fun p => p.1 != name

/-- Whether an attribute is set. -/
def has (a : Attributes) (name : String) : Bool := (a.get? name).isSome

theorem get?_set (a : Attributes) (name other : String) (v : Value) :
    (a.set name v).get? other = if other = name then some v else a.get? other := by
  induction a with
  | nil =>
    by_cases h : other = name
    · simp [set, get?, h]
    · have : (other == name) = false := by simpa using h
      simp [set, get?, List.lookup_cons, h, this]
  | cons p rest ih =>
    obtain ⟨n, u⟩ := p
    simp only [get?] at ih
    by_cases hn : n = name
    · subst hn
      by_cases h : other = n
      · simp [set, get?, h]
      · have : (other == n) = false := by simpa using h
        simp [set, get?, List.lookup_cons, h, this]
    · by_cases ho : other = n
      · subst ho
        simp [set, get?, hn]
      · have : (other == n) = false := by simpa using ho
        simp [set, get?, List.lookup_cons, hn, this, ih]

theorem get?_erase (a : Attributes) (name other : String) :
    (a.erase name).get? other = if other = name then none else a.get? other := by
  induction a with
  | nil => simp [erase, get?]
  | cons p rest ih =>
    obtain ⟨n, u⟩ := p
    simp only [erase, get?] at ih
    by_cases hn : n = name
    · subst hn
      by_cases h : other = n
      · subst h
        simpa [erase, get?] using ih
      · have : (other == n) = false := by simpa using h
        simpa [erase, get?, List.lookup_cons, h, this] using ih
    · have hne : (n != name) = true := by simpa using hn
      by_cases h : other = n
      · subst h
        simp [erase, get?, hn]
      · have : (other == n) = false := by simpa using h
        simpa [erase, get?, List.lookup_cons, hne, this] using ih

/-- Setting a new attribute and removing it again leaves the attributes as they were. -/
theorem erase_set (a : Attributes) (name : String) (v : Value) (h : a.get? name = none) :
    (a.set name v).erase name = a := by
  induction a with
  | nil => simp [set, erase]
  | cons p rest ih =>
    obtain ⟨n, u⟩ := p
    by_cases hn : n = name
    · subst hn
      simp [get?] at h
    · have hb : (name == n) = false := by simpa using Ne.symm hn
      have hr : get? rest name = none := by simpa [get?, List.lookup_cons, hb] using h
      have hne : (n != name) = true := by simpa using hn
      have := ih hr
      simp only [erase] at this
      simp [set, erase, hn, this]

end Attributes

end GuardedWalk
